import Mathlib.Data.Finset.Card
import StyleLang.Scopes

/-!
# The history of a stack of scopes

What a stack of scopes holds is told by the actions that have led to it. Of the frames that were
opened those are open still behind whose opening the actions never fall below its level
(`Scopes.Action.Opened`), and an action binds a name in the frame on whose level it stands
(`Scopes.Action.Binds`). Both are said of the list of actions alone.

The stack agrees with it after each action (`Scopes.Recorded.act`), so after all of them
(`Scopes.recorded_run`): its frames are the open ones from the innermost outwards, with the latest
value of each name. Actions inside a frame do not touch the frames around it
(`Scopes.exists_frames_run`).
-/

namespace StyleLang

namespace Scopes

/-- What can be done to a stack of frames. -/
inductive Action (α : Type) where
  | push
  | pop
  | define (name : String) (value : α)

variable {α : Type}

namespace Action

/-- How many frames an action opens; to close one counts as -1. -/
def rise : Action α → Int
  | push => 1
  | pop => -1
  | define _ _ => 0

/-- How many frames actions open more than they close. -/
def level : List (Action α) → Int
  | [] => 0
  | action :: actions => action.rise + level actions

/-- The actions do not close the frame that is the innermost before them. -/
def Inside (actions : List (Action α)) : Prop :=
  ∀ before, before <+: actions → 0 ≤ level before

/-- One of the actions binds the name in the frame that is the innermost before them. -/
def Binds (actions : List (Action α)) (name : String) : Prop :=
  ∃ before value after, actions = before ++ .define name value :: after ∧ level before = 0

/-- The last of the actions to bind the name in the frame that is the innermost before them gives it
the value. -/
def Latest (actions : List (Action α)) (name : String) (value : α) : Prop :=
  ∃ before after, actions = before ++ .define name value :: after ∧ level before = 0
    ∧ ¬ Binds after name

/-- Of the frames still open after a history, the one a number of levels out from the innermost was
opened before the actions `inner`. -/
structure Opened (history : List (Action α)) (n : Nat) (inner : List (Action α)) : Prop where
  suffix : push :: inner <:+ history
  inside : Inside inner
  level_eq : level inner = n

variable {actions history inner inner' : List (Action α)} {action : Action α} {name : String}
  {value : α} {n : Nat}

@[simp] theorem level_nil : level ([] : List (Action α)) = 0 := rfl

@[simp] theorem level_cons (action : Action α) (actions : List (Action α)) :
    level (action :: actions) = action.rise + level actions := rfl

@[simp] theorem level_append (s t : List (Action α)) : level (s ++ t) = level s + level t := by
  induction s with
  | nil => simp
  | cons action s ih => simp [ih, Int.add_assoc]

/-! ## One more action -/

theorem concat_eq_append_cons_iff {before after : List (Action α)} {other : Action α} :
    actions ++ [action] = before ++ other :: after ↔
      (actions = before ∧ action = other ∧ after = [])
        ∨ ∃ after', after = after' ++ [action] ∧ actions = before ++ other :: after' := by
  constructor
  · intro h
    rcases after.eq_nil_or_concat' with rfl | ⟨after', last, rfl⟩
    · obtain ⟨rfl, ha⟩ := List.append_inj' h rfl
      exact .inl ⟨rfl, List.singleton_inj.1 ha, rfl⟩
    · rw [← List.cons_append, ← List.append_assoc] at h
      obtain ⟨rfl, ha⟩ := List.append_inj' h rfl
      exact .inr ⟨after', by rw [ha], rfl⟩
  · rintro (⟨rfl, rfl, rfl⟩ | ⟨after', rfl, rfl⟩)
    · rfl
    · simp

theorem inside_concat :
    Inside (actions ++ [action]) ↔ Inside actions ∧ 0 ≤ level actions + action.rise := by
  constructor
  · intro h
    refine ⟨fun before hb => h before (hb.trans (List.prefix_append _ _)), ?_⟩
    simpa using h _ List.prefix_rfl
  · rintro ⟨h, hl⟩ before hb
    rcases List.prefix_concat_iff.1 hb with rfl | hb
    · simpa using hl
    · exact h before hb

theorem binds_concat : Binds (actions ++ [action]) name ↔
    Binds actions name ∨ level actions = 0 ∧ ∃ value, action = .define name value := by
  constructor
  · rintro ⟨before, value, after, h, hl⟩
    rcases concat_eq_append_cons_iff.1 h with ⟨rfl, rfl, -⟩ | ⟨after', -, rfl⟩
    · exact .inr ⟨hl, value, rfl⟩
    · exact .inl ⟨before, value, after', rfl, hl⟩
  · rintro (⟨before, value, after, rfl, hl⟩ | ⟨hl, value, rfl⟩)
    · exact ⟨before, value, after ++ [action], by simp, hl⟩
    · exact ⟨actions, value, [], rfl, hl⟩

theorem not_binds_nil : ¬ Binds ([] : List (Action α)) name := by
  rintro ⟨before, value, after, h, -⟩
  simp at h

/-- Binding a name once more makes its older values void. -/
theorem latest_concat : Latest (actions ++ [action]) name value ↔
    (level actions = 0 ∧ action = .define name value)
      ∨ (Latest actions name value
        ∧ ¬ (level actions = 0 ∧ ∃ value, action = .define name value)) := by
  constructor
  · rintro ⟨before, after, h, hl, hb⟩
    rcases concat_eq_append_cons_iff.1 h with ⟨rfl, rfl, -⟩ | ⟨after', rfl, rfl⟩
    · exact .inl ⟨hl, rfl⟩
    · rw [binds_concat, not_or] at hb
      refine .inr ⟨⟨before, after', rfl, hl, hb.1⟩, ?_⟩
      simpa [hl, rise] using hb.2
  · rintro (⟨hl, rfl⟩ | ⟨⟨before, after, rfl, hl, hb⟩, hn⟩)
    · exact ⟨actions, [], rfl, hl, not_binds_nil⟩
    · refine ⟨before, after ++ [action], by simp, hl, ?_⟩
      rw [binds_concat, not_or]
      refine ⟨hb, ?_⟩
      simpa [hl, rise] using hn

theorem binds_iff_exists_latest : Binds actions name ↔ ∃ value, Latest actions name value := by
  constructor
  · induction actions using List.reverseRecOn with
    | nil => exact fun h => absurd h not_binds_nil
    | append_singleton actions action ih =>
      intro h
      by_cases hlast : level actions = 0 ∧ ∃ value, action = .define name value
      · obtain ⟨hl, value, rfl⟩ := hlast
        exact ⟨value, latest_concat.2 (.inl ⟨hl, rfl⟩)⟩
      · obtain ⟨value, hv⟩ := ih ((binds_concat.1 h).resolve_right hlast)
        exact ⟨value, latest_concat.2 (.inr ⟨hv, hlast⟩)⟩
  · rintro ⟨value, before, after, h, hl, -⟩
    exact ⟨before, value, after, h, hl⟩

/-- An action opens a frame, or happens inside those that are open and stay so. -/
theorem opened_concat : Opened (history ++ [action]) n inner ↔
    (action = .push ∧ n = 0 ∧ inner = [])
      ∨ ∃ inner' m, inner = inner' ++ [action] ∧ Opened history m inner'
        ∧ (n : Int) = m + action.rise := by
  constructor
  · rintro ⟨hs, hi, hl⟩
    obtain ⟨before, hs⟩ := hs
    rcases concat_eq_append_cons_iff.1 hs.symm with ⟨-, rfl, rfl⟩ | ⟨inner', rfl, rfl⟩
    · exact .inl ⟨rfl, by simpa using hl.symm, rfl⟩
    · obtain ⟨hi, -⟩ := inside_concat.1 hi
      have hnonneg := hi inner' List.prefix_rfl
      refine .inr ⟨inner', (level inner').toNat, rfl, ⟨⟨before, rfl⟩, hi, by omega⟩, ?_⟩
      rw [level_append, level_cons, level_nil] at hl
      omega
  · rintro (⟨rfl, rfl, rfl⟩ | ⟨inner', m, rfl, ⟨⟨before, rfl⟩, hi, hl⟩, hn⟩)
    · exact ⟨List.suffix_append _ _, by simp [Inside], rfl⟩
    · refine ⟨⟨before, by simp⟩, inside_concat.2 ⟨hi, by omega⟩, ?_⟩
      rw [level_append, level_cons, level_nil]
      omega

theorem not_opened_nil : ¬ Opened ([] : List (Action α)) n inner :=
  fun h => by simpa using h.suffix.length_le

/-- Only one frame is a given number of levels out. -/
theorem Opened.unique (h : Opened history n inner) (h' : Opened history n inner') :
    inner' = inner := by
  induction history using List.reverseRecOn generalizing n inner inner' with
  | nil => exact absurd h not_opened_nil
  | append_singleton history action ih =>
    rcases opened_concat.1 h with ⟨rfl, rfl, rfl⟩ | ⟨s, m, rfl, hs, hn⟩ <;>
      rcases opened_concat.1 h' with ⟨hp, hz, rfl⟩ | ⟨s', m', rfl, hs', hn'⟩
    · rfl
    · simp [rise] at hn'
      omega
    · subst hp hz
      simp [rise] at hn
      omega
    · obtain rfl : m = m' := by omega
      rw [ih hs hs']

end Action

open Scopes.Action

/-! ## Doing actions -/

variable {scopes : Scopes α} {actions history : List (Action α)} {action : Action α}

/-- Does an action, or says why it cannot be done. -/
def act? (scopes : Scopes α) : Action α → Except Misuse (Scopes α)
  | .push => .ok scopes.push
  | .pop => scopes.pop?.map Prod.snd
  | .define name value => scopes.define? name value

/-- What cannot be done changes nothing. -/
def act (scopes : Scopes α) (action : Action α) : Scopes α :=
  match scopes.act? action with
  | .ok scopes' => scopes'
  | .error _ => scopes

def run (scopes : Scopes α) (actions : List (Action α)) : Scopes α :=
  actions.foldl act scopes

theorem run_cons (scopes : Scopes α) (action : Action α) (actions : List (Action α)) :
    scopes.run (action :: actions) = (scopes.act action).run actions := rfl

theorem run_concat (scopes : Scopes α) (actions : List (Action α)) (action : Action α) :
    scopes.run (actions ++ [action]) = (scopes.run actions).act action :=
  List.foldl_append

@[simp] theorem act_push (scopes : Scopes α) : scopes.act .push = scopes.push := rfl

@[simp] theorem act_pop (scopes : Scopes α) : scopes.act .pop = scopes.pop := by
  obtain ⟨_ | ⟨frame, frames⟩⟩ := scopes <;> rfl

@[simp] theorem act_define (scopes : Scopes α) (name : String) (value : α) :
    scopes.act (.define name value) = scopes.define name value := by
  obtain ⟨_ | ⟨frame, frames⟩⟩ := scopes <;> rfl

/-- Only what needs a frame cannot be done, where none is open. -/
theorem act?_eq_error_iff {misuse : Misuse} : scopes.act? action = .error misuse ↔
    scopes.depth = 0 ∧ ((action = .pop ∧ misuse = .popEmpty)
      ∨ ∃ name value, action = .define name value ∧ misuse = .defineEmpty name) := by
  obtain ⟨_ | ⟨frame, frames⟩⟩ := scopes <;> cases action <;>
    simp [act?, pop?, define?, depth, isEmpty, Except.map, eq_comm]

theorem frame?_eq_ok_iff {n : Nat} {frame : Bindings α} :
    scopes.frame? n = .ok frame ↔ scopes.frames[n]? = some frame := by
  rw [frame?]
  cases scopes.frames[n]? <;> simp

theorem frame?_eq_error_iff {n : Nat} {misuse : Misuse} : scopes.frame? n = .error misuse ↔
    scopes.depth ≤ n ∧ misuse = .missingFrame n scopes.depth := by
  rw [frame?, depth, ← List.getElem?_eq_none_iff]
  cases scopes.frames[n]? <;> simp [eq_comm]

/-- A frame gives each name the latest value that it has been bound to in the frame. -/
def Holds (frame : Bindings α) (inner : List (Action α)) : Prop :=
  ∀ name value, frame.find? name = some value ↔ Latest inner name value

/-- The frames of a stack are those that a history leaves open. -/
structure Recorded (history : List (Action α)) (scopes : Scopes α) : Prop where
  frame : ∀ {n inner}, Opened history n inner →
    ∃ frame, scopes.frames[n]? = some frame ∧ Holds frame inner
  opened : ∀ {n}, n < scopes.depth → ∃ inner, Opened history n inner

namespace Holds

variable {frame : Bindings α} {inner : List (Action α)} {name : String} {value : α}

theorem empty : Holds (.empty : Bindings α) [] := by
  intro name value
  constructor
  · intro h
    cases h
  · intro h
    exact absurd (binds_iff_exists_latest.2 ⟨value, h⟩) not_binds_nil

/-- What is not bound in the frame leaves it as it is. -/
theorem pass (h : Holds frame inner) (hn : ¬ (level inner = 0 ∧ ∃ name value,
    action = .define name value)) : Holds frame (inner ++ [action]) := by
  intro name value
  rw [h name value, latest_concat]
  constructor
  · exact fun hv => .inr ⟨hv, fun ⟨hl, value, ha⟩ => hn ⟨hl, name, value, ha⟩⟩
  · rintro (⟨hl, ha⟩ | ⟨hv, -⟩)
    · exact absurd ⟨hl, name, value, ha⟩ hn
    · exact hv

theorem insert (h : Holds frame inner) (hl : level inner = 0) :
    Holds (frame.insert name value) (inner ++ [.define name value]) := by
  intro other value'
  rw [Bindings.find?_insert, latest_concat]
  by_cases ho : other = name
  · subst ho
    simp [hl]
  · rw [if_neg ho, h other value']
    simp [hl, Ne.symm ho]

theorem find?_eq_none_iff (h : Holds frame inner) :
    frame.find? name = none ↔ ¬ Binds inner name := by
  rw [binds_iff_exists_latest, Option.eq_none_iff_forall_not_mem, not_exists]
  exact forall_congr' fun value => not_congr (h name value)

/-- A frame has as many entries as there are names bound in it. -/
theorem exists_names (h : Holds frame inner) : ∃ names : Finset String,
    frame.size = names.card ∧ ∀ name, name ∈ names ↔ Binds inner name := by
  refine ⟨(frame.entries.map Prod.fst).toFinset, ?_, fun name => ?_⟩
  · rw [List.toFinset_card_of_nodup frame.nodup_names, List.length_map]
    rfl
  · rw [List.mem_toFinset, ← not_iff_not, ← h.find?_eq_none_iff, Bindings.find?_eq_none_iff]

end Holds

namespace Recorded

theorem empty : Recorded ([] : List (Action α)) .empty :=
  ⟨fun h => absurd h not_opened_nil, fun h => absurd h (Nat.not_lt_zero _)⟩

/-- An action does to the frames of a stack what it adds to the history. -/
theorem act (h : Recorded history scopes) (action : Action α) :
    Recorded (history ++ [action]) (scopes.act action) := by
  cases action with
  | push =>
    rw [act_push]
    refine ⟨fun {n} _ hn => ?_, fun {n} hn => ?_⟩
    · rcases opened_concat.1 hn with ⟨-, rfl, rfl⟩ | ⟨inner, m, rfl, hm, hrise⟩
      · exact ⟨.empty, rfl, .empty⟩
      · obtain ⟨frame, hf, hh⟩ := h.frame hm
        obtain rfl : n = m + 1 := Int.ofNat.inj hrise
        exact ⟨frame, hf, hh.pass (by simp)⟩
    · rcases n with _ | n
      · exact ⟨[], opened_concat.2 (.inl ⟨rfl, rfl, rfl⟩)⟩
      · obtain ⟨inner, hopened⟩ := h.opened (Nat.lt_of_succ_lt_succ hn)
        exact ⟨_, opened_concat.2 (.inr ⟨inner, n, rfl, hopened, rfl⟩)⟩
  | pop =>
    rw [act_pop]
    refine ⟨fun {n} _ hn => ?_, fun {n} hn => ?_⟩
    · rcases opened_concat.1 hn with ⟨⟨⟩, -, -⟩ | ⟨inner, m, rfl, hm, hrise⟩
      obtain ⟨frame, hf, hh⟩ := h.frame hm
      obtain rfl : m = n + 1 := by rw [rise] at hrise; omega
      exact ⟨frame, by rw [pop, List.getElem?_tail, hf], hh.pass (by simp)⟩
    · have hd : n + 1 < scopes.depth := by
        simp only [pop, depth, List.length_tail] at hn ⊢
        omega
      obtain ⟨inner, hopened⟩ := h.opened hd
      exact ⟨_, opened_concat.2 (.inr ⟨inner, n + 1, rfl, hopened, by rw [rise]; omega⟩)⟩
  | define name value =>
    rw [act_define]
    refine ⟨fun {n} _ hn => ?_, fun {n} hn => ?_⟩
    · rcases opened_concat.1 hn with ⟨⟨⟩, -, -⟩ | ⟨inner, m, rfl, hm, hrise⟩
      obtain ⟨frame, hf, hh⟩ := h.frame hm
      obtain rfl : m = n := by rw [rise] at hrise; omega
      have hlevel := hm.level_eq
      rcases m with _ | m
      · refine ⟨frame.insert name value, ?_, hh.insert hlevel⟩
        rw [define, List.getElem?_modifyHead_zero, hf]
        rfl
      · refine ⟨frame, ?_, hh.pass (by omega)⟩
        rw [define, List.getElem?_modifyHead_succ, hf]
    · obtain ⟨inner, hopened⟩ := h.opened (by rwa [depth_define] at hn)
      exact ⟨_, opened_concat.2 (.inr ⟨inner, n, rfl, hopened, by rw [rise]; omega⟩)⟩

theorem exists_opened (h : Recorded history scopes) {n : Nat} {frame : Bindings α}
    (hf : scopes.frames[n]? = some frame) :
    ∃ inner, Opened history n inner ∧ Holds frame inner := by
  obtain ⟨inner, hn⟩ := h.opened (List.getElem?_eq_some_iff.1 hf).1
  obtain ⟨frame', hf', hh⟩ := h.frame hn
  obtain rfl : frame = frame' := Option.some.inj (hf.symm.trans hf')
  exact ⟨inner, hn, hh⟩

theorem lookup_eq_none_iff (h : Recorded history scopes) (name : String) :
    scopes.lookup name = none ↔ ∀ n inner, Opened history n inner → ¬ Binds inner name := by
  rw [lookup, List.findSome?_eq_none_iff]
  constructor
  · intro hnone n inner hn
    obtain ⟨frame, hf, hh⟩ := h.frame hn
    exact hh.find?_eq_none_iff.1 (hnone frame (List.mem_of_getElem? hf))
  · intro hnone frame hmem
    obtain ⟨n, hf⟩ := List.getElem?_of_mem hmem
    obtain ⟨inner, hn, hh⟩ := h.exists_opened hf
    exact hh.find?_eq_none_iff.2 (hnone n inner hn)

theorem exists_of_lookup (h : Recorded history scopes) {name : String} {value : α}
    (hl : scopes.lookup name = some value) : ∃ n inner, Opened history n inner
      ∧ Latest inner name value
      ∧ ∀ m < n, ∀ inner', Opened history m inner' → ¬ Binds inner' name := by
  obtain ⟨before, frame, after, hframes, hv, hnone⟩ := List.findSome?_eq_some_iff.1 hl
  have hf : scopes.frames[before.length]? = some frame := by simp [hframes]
  obtain ⟨inner, hn, hh⟩ := h.exists_opened hf
  refine ⟨before.length, inner, hn, (hh name value).1 hv, fun m hm inner' hm' => ?_⟩
  obtain ⟨frame', hf', hh'⟩ := h.frame hm'
  rw [hframes, List.getElem?_append_left hm] at hf'
  exact hh'.find?_eq_none_iff.1 (hnone frame' (List.mem_of_getElem? hf'))

/-- A name has the value that it has in the innermost frame that binds it. -/
theorem lookup_eq_some_iff (h : Recorded history scopes) (name : String) (value : α) :
    scopes.lookup name = some value ↔ ∃ n inner, Opened history n inner
      ∧ Latest inner name value
      ∧ ∀ m < n, ∀ inner', Opened history m inner' → ¬ Binds inner' name := by
  refine ⟨h.exists_of_lookup, ?_⟩
  rintro ⟨n, inner, hn, hv, hinner⟩
  have hb := binds_iff_exists_latest.2 ⟨value, hv⟩
  rcases hl : scopes.lookup name with _ | value'
  · exact absurd hb ((h.lookup_eq_none_iff name).1 hl n inner hn)
  · obtain ⟨n', inner', hn', hv', hinner'⟩ := h.exists_of_lookup hl
    have hb' := binds_iff_exists_latest.2 ⟨value', hv'⟩
    rcases Nat.lt_trichotomy n n' with hlt | rfl | hlt
    · exact absurd hb (hinner' n hlt inner hn)
    · obtain rfl := hn.unique hn'
      obtain ⟨frame, -, hh⟩ := h.frame hn
      exact ((hh name value').2 hv').symm.trans ((hh name value).2 hv)
    · exact absurd hb' (hinner n' hlt inner' hn')

end Recorded

theorem recorded_run (history : List (Action α)) : Recorded history (empty.run history) := by
  induction history using List.reverseRecOn with
  | nil => exact .empty
  | append_singleton history action ih =>
    rw [run_concat]
    exact ih.act action

/-- Inside a frame nothing is done to the frames around it. -/
theorem exists_frames_run (scopes : Scopes α) (h : Inside actions) : ∃ frames,
    (scopes.push.run actions).frames = frames ++ scopes.frames
      ∧ (frames.length : Int) = level actions + 1 := by
  induction actions using List.reverseRecOn with
  | nil => exact ⟨[.empty], rfl, rfl⟩
  | append_singleton actions action ih =>
    obtain ⟨hi, hl⟩ := inside_concat.1 h
    obtain ⟨frames, hf, hn⟩ := ih hi
    -- The frame that the actions are inside of is one of these.
    obtain ⟨frame, frames, rfl⟩ : ∃ frame rest, frames = frame :: rest :=
      List.exists_cons_of_length_pos (by have := hi actions List.prefix_rfl; omega)
    rw [run_concat, level_append, level_cons, level_nil]
    cases action with
    | push =>
      refine ⟨.empty :: frame :: frames, ?_, by simp [rise] at hn ⊢; omega⟩
      rw [act_push, push, hf]
      rfl
    | pop =>
      refine ⟨frames, ?_, by simp [rise] at hn ⊢; omega⟩
      rw [act_pop, pop, hf]
      rfl
    | define name value =>
      refine ⟨frame.insert name value :: frames, ?_, by simpa [rise] using hn⟩
      rw [act_define, define, hf]
      rfl

/-- After any actions, of which those that cannot be done change nothing, a stack holds what its
history says: one frame for each opening that has not been undone, the names bound in it with their
latest values, and for a name the value from the innermost of them. What is done between entering a
block and leaving it makes no difference outside. -/
theorem run_tells_history (history : List (Action α)) :
    let scopes := (empty : Scopes α).run history
    (∀ action misuse, scopes.act? action = .error misuse ↔
        scopes.depth = 0 ∧ ((action = .pop ∧ misuse = .popEmpty)
          ∨ ∃ name value, action = .define name value ∧ misuse = .defineEmpty name))
      ∧ (∀ action misuse, scopes.act? action = .error misuse →
        (empty : Scopes α).run (history ++ [action]) = scopes)
      ∧ (∀ n, (∃! inner, Opened history n inner) ↔ n < scopes.depth)
      ∧ (∀ n misuse, scopes.frame? n = .error misuse ↔
        scopes.depth ≤ n ∧ misuse = .missingFrame n scopes.depth)
      ∧ (∀ n inner, Opened history n inner → ∃ frame, scopes.frame? n = .ok frame
        ∧ (∀ name value, frame.find? name = some value ↔ Latest inner name value)
        ∧ ∃ names : Finset String, frame.size = names.card
          ∧ ∀ name, name ∈ names ↔ Binds inner name)
      ∧ (∀ name value, scopes.lookup name = some value ↔ ∃ n inner, Opened history n inner
        ∧ Latest inner name value
        ∧ ∀ m < n, ∀ inner', Opened history m inner' → ¬ Binds inner' name)
      ∧ (∀ name, scopes.lookup name = none ↔
        ∀ n inner, Opened history n inner → ¬ Binds inner name)
      ∧ ∀ (outer : Scopes α) (inner : List (Action α)), Inside inner → level inner = 0 →
        outer.run (.push :: inner ++ [.pop]) = outer := by
  intro scopes
  have h : Recorded history scopes := recorded_run history
  refine ⟨fun action misuse => act?_eq_error_iff, fun action misuse herror => ?_, fun n => ?_,
    fun n misuse => frame?_eq_error_iff, fun n inner hn => ?_, h.lookup_eq_some_iff,
    h.lookup_eq_none_iff, fun outer inner hi hl => ?_⟩
  · rw [run_concat]
    show scopes.act action = scopes
    rw [act, herror]
  · constructor
    · rintro ⟨inner, hn, -⟩
      obtain ⟨frame, hf, -⟩ := h.frame hn
      exact (List.getElem?_eq_some_iff.1 hf).1
    · intro hn
      obtain ⟨inner, hn⟩ := h.opened hn
      exact ⟨inner, hn, fun inner' hn' => hn.unique hn'⟩
  · obtain ⟨frame, hf, hh⟩ := h.frame hn
    exact ⟨frame, frame?_eq_ok_iff.2 hf, hh, hh.exists_names⟩
  · obtain ⟨frames, hf, hn⟩ := exists_frames_run outer hi
    obtain ⟨frame, rfl⟩ : ∃ frame, frames = [frame] := List.length_eq_one_iff.1 (by omega)
    rw [run_concat, run_cons, act_push, act_pop, pop, hf]
    rfl

/-- A stack on which nothing can be done at first, then with a name bound outside and inside of a
block that has been left again. -/
theorem run_tells_history_shadowed :
    let block : List (Action Nat) := [.push, .define "X" 2, .define "Y" 3, .pop]
    let inner := .define "X" 1 :: block ++ [.push]
    let history := [.pop, .define "X" 0, .push] ++ inner
    let scopes := (empty : Scopes Nat).run history
    scopes.act? .pop ≠ .error .popEmpty ∧ Opened history 1 inner
      ∧ (∃ frame, scopes.frame? 1 = .ok frame
        ∧ (∀ name value, frame.find? name = some value ↔ Latest inner name value)
        ∧ ∃ names : Finset String, frame.size = names.card
          ∧ ∀ name, name ∈ names ↔ Binds inner name)
      ∧ Inside block ∧ level block = 0 ∧ scopes.run (.push :: block ++ [.pop]) = scopes := by
  intro block inner history scopes
  have hinside (actions : List (Action Nat))
      (h : ∀ before ∈ actions.inits, 0 ≤ level before) : Inside actions :=
    fun before hb => h before ((List.mem_inits _ _).2 hb)
  have hblock : Inside block := hinside block (by decide)
  have hopened : Opened history 1 inner :=
    ⟨⟨[.pop, .define "X" 0], rfl⟩, hinside inner (by decide), by decide⟩
  obtain ⟨hmisuse, -, -, -, hframe, -, -, hrestored⟩ := run_tells_history history
  refine ⟨fun h => ?_, hopened, hframe 1 inner hopened, hblock, by decide,
    hrestored scopes block hblock (by decide)⟩
  exact absurd ((hmisuse _ _).1 h).1 (by decide)

end Scopes

end StyleLang

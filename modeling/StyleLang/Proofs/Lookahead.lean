import StyleLang.Proofs.ParseComplete

/-!
# How far a parse looks

A parse looks at the tokens that it passes and at the one before which it stops, and at nothing
behind. So from two cursors before the same tokens up to there it does the same
(`Parse.Follows`). A loop is given a bound on its rounds, and with any bound that exceeds the
number of tokens left it does the same too: `Parse.Alike` compares a parse with one that differs
from it in its bounds, and `Parse.Alike.loop` goes from one round to all of them.

The main lemma is `Grammar.alike_outerStmts`. Only a lowercase name is read with a look at the
token behind it, and it is passed whatever that token is (`Grammar.follows_lower`).
-/

namespace StyleLang

namespace Cursor

/-- The tokens still to come, with the end behind them. -/
def toCome (c : Cursor) : List Token :=
  c.ahead ++ [c.ending]

variable {c d : Cursor} {m n : Nat}

theorem length_toCome (c : Cursor) : c.toCome.length = c.left + 1 := by
  simp [toCome, c.left_eq]

theorem head?_toCome (c : Cursor) : c.toCome.head? = some c.current := by
  cases h : c.ahead <;> simp [toCome, current, h]

theorem left_forward (c : Cursor) : ∀ n : Nat, (c.forward n).left = c.left - n
  | 0 => rfl
  | n + 1 => by
    rw [forward, left_forward c.advance.2 n]
    show c.left - 1 - n = _
    omega

theorem file_forward (c : Cursor) : ∀ n : Nat, (c.forward n).file = c.file
  | 0 => rfl
  | n + 1 => file_forward c.advance.2 n

theorem ending_forward (c : Cursor) : ∀ n : Nat, (c.forward n).ending = c.ending
  | 0 => rfl
  | n + 1 => ending_forward c.advance.2 n

theorem toCome_forward (h : n ≤ c.left) : (c.forward n).toCome = c.toCome.drop n := by
  rw [toCome, ahead_forward, ending_forward, toCome,
    List.drop_append_of_le_length (by rw [← c.left_eq]; exact h)]

theorem passed_forward (c : Cursor) : ∀ n : Nat,
    (c.forward n).passed = (c.ahead.take n).reverse ++ c.passed
  | 0 => rfl
  | n + 1 => by
    rw [forward, passed_forward c.advance.2 n]
    show (c.ahead.tail.take n).reverse ++ (c.ahead.head?.toList ++ c.passed) = _
    cases c.ahead <;> simp

theorem take_toCome (h : n ≤ c.left) : c.toCome.take n = c.ahead.take n := by
  rw [toCome, List.take_append_of_le_length (by rw [← c.left_eq]; exact h)]

/-- The kind of the second token to come. -/
theorem map_kind_toCome (h : 1 ≤ c.left) : c.toCome[1]?.map Token.kind = some (c.peek 1) := by
  have hl := c.left_eq
  rcases hc : c.ahead with _ | ⟨first, _ | ⟨second, rest⟩⟩
  · simp [hl, hc] at h
  · simp [toCome, peek, hc, hl, c.ending_kind]
  · simp [toCome, peek, hc]

/-! ## Cursors before the same tokens -/

/-- The second cursor has passed the same tokens as the first, and the next tokens are the same, as
many as the number says and one more. -/
structure Agree (n : Nat) (c d : Cursor) : Prop where
  file : d.file = c.file
  passed : d.passed = c.passed
  toCome : d.toCome.take (n + 1) = c.toCome.take (n + 1)

namespace Agree

theorem refl (n : Nat) (c : Cursor) : Agree n c c :=
  ⟨rfl, rfl, rfl⟩

theorem mono (h : Agree n c d) (hm : m ≤ n) : Agree m c d where
  file := h.file
  passed := h.passed
  toCome := by
    have ht := congrArg (List.take (m + 1)) h.toCome
    rwa [List.take_take, List.take_take, Nat.min_eq_left (Nat.succ_le_succ hm)] at ht

theorem current (h : Agree n c d) : d.current = c.current := by
  have ht := congrArg List.head? (h.mono (Nat.zero_le n)).toCome
  simpa [List.head?_take, head?_toCome] using ht

theorem le_left (h : Agree n c d) (hn : n ≤ c.left) : n ≤ d.left := by
  have ht := congrArg List.length h.toCome
  simp only [List.length_take, length_toCome] at ht
  omega

theorem forward (h : Agree (m + n) c d) (hm : m + n ≤ c.left) :
    Agree n (c.forward m) (d.forward m) := by
  have hd := h.le_left hm
  have ht := h.toCome
  refine ⟨?_, ?_, ?_⟩
  · rw [file_forward, file_forward, h.file]
  · have hp := congrArg (List.take m) ht
    rw [List.take_take, List.take_take, Nat.min_eq_left (by omega), take_toCome (by omega),
      take_toCome (by omega)] at hp
    rw [passed_forward, passed_forward, h.passed, hp]
  · have hb := congrArg (List.drop m) ht
    rw [List.drop_take, List.drop_take, show m + n + 1 - m = n + 1 by omega] at hb
    rw [toCome_forward (by omega), toCome_forward (by omega), hb]

theorem lastStop (h : Agree n c d) : d.lastStop = c.lastStop := by
  rw [Cursor.lastStop, Cursor.lastStop, h.passed, h.file]

theorem peek_one (h : Agree n c d) (hn : 1 ≤ n) (hc : n ≤ c.left) : d.peek 1 = c.peek 1 := by
  have hd := h.le_left hc
  have ht := congrArg (·[1]?) (h.mono hn).toCome
  simp only [List.getElem?_take_of_lt (Nat.lt_succ_self 1)] at ht
  have hk := congrArg (Option.map Token.kind) ht
  rw [map_kind_toCome (by omega), map_kind_toCome (by omega)] at hk
  exact Option.some.inj hk

end Agree

end Cursor

namespace Parse

variable {α β : Type}

/-- A parse that has come to a result, or has failed, at a cursor. -/
def stop : Except Diagnostic α → Cursor → EStateM.Result Diagnostic Cursor α
  | .ok a, c => .ok a c
  | .error fault, c => .error fault c

theorem stop_inj {result result' : Except Diagnostic α} {c c' : Cursor}
    (h : stop result c = stop result' c') : result = result' ∧ c = c' := by
  cases result <;> cases result' <;> cases h <;> exact ⟨rfl, rfl⟩

/-- From the cursor the first parse passes a number of tokens, at least as many as it is said, and
stops there. The second does the same from every cursor before the same tokens up to the one at
which the first stops, if it has fewer tokens left than the bound. -/
def Follows (least bound : Nat) (p p' : Parse α) (c : Cursor) : Prop :=
  ∃ n, least ≤ n ∧ n ≤ c.left ∧ ∃ result, p.run c = stop result (c.forward n)
    ∧ ∀ d : Cursor, d.left < bound → c.Agree n d → p'.run d = stop result (d.forward n)

/-- The second parse follows the first from all cursors with few tokens left. -/
def Alike (m m' : Nat) (p p' : Parse α) : Prop :=
  ∀ c : Cursor, c.left < m → Follows 0 m' p p' c

/-- The parse passes a token at least where it comes to a result. -/
def Passes (p : Parse α) : Prop :=
  ∀ (c : Cursor) (a : α) (c' : Cursor), p.run c = .ok a c' → c'.left < c.left

theorem Sound.passes {p : Parse α} {R : List Token → α → Prop} (hp : Sound p R)
    (hne : ∀ ts a, R ts a → ts ≠ []) : Passes p := by
  intro c a c' hr
  have hs := hp c
  rw [hr] at hs
  obtain ⟨ts, hts, -, ha⟩ := hs
  have hpos := List.length_pos_iff.2 (hne ts a ha)
  rw [c.left_eq, c'.left_eq, hts, List.length_append]
  omega

variable {p p' : Parse α} {f f' : α → Parse β} {c : Cursor} {least bound m m' : Nat}

namespace Follows

theorem mono {bound' : Nat} (h : Follows least bound p p' c) (hb : bound' ≤ bound) :
    Follows least bound' p p' c := by
  obtain ⟨n, hl, hn, result, hr, hd⟩ := h
  exact ⟨n, hl, hn, result, hr, fun d hlt => hd d (Nat.lt_of_lt_of_le hlt hb)⟩

theorem weaken (h : Follows least bound p p' c) : Follows 0 bound p p' c := by
  obtain ⟨n, -, h⟩ := h
  exact ⟨n, Nat.zero_le n, h⟩

theorem bind (hp : Follows least bound p p' c)
    (hf : ∀ a n, least ≤ n → n ≤ c.left → p.run c = .ok a (c.forward n) →
      Follows 0 (bound - n) (f a) (f' a) (c.forward n)) :
    Follows least bound (p >>= f) (p' >>= f') c := by
  obtain ⟨n, hl, hn, result, hr, hd⟩ := hp
  cases result with
  | error fault =>
    refine ⟨n, hl, hn, .error fault, by rw [EStateM.run_bind, hr]; rfl, fun d hb ha => ?_⟩
    rw [EStateM.run_bind, hd d hb ha]
    rfl
  | ok a =>
    obtain ⟨n', -, hn', result, hr', hd'⟩ := hf a n hl hn hr
    rw [Cursor.left_forward] at hn'
    refine ⟨n + n', by omega, by omega, result, ?_, fun d hb ha => ?_⟩
    · rw [EStateM.run_bind, hr, ← Cursor.forward_forward]
      exact hr'
    · have hle := ha.le_left (by omega)
      have hb' : (d.forward n).left < bound - n := by
        rw [Cursor.left_forward]
        omega
      rw [EStateM.run_bind, hd d hb (ha.mono (by omega)), ← Cursor.forward_forward]
      exact hd' _ hb' (ha.forward (by omega))

theorem bind_alike (hp : Follows least m' p p' c) (hc : c.left < m)
    (hf : ∀ a, Alike m m' (f a) (f' a)) : Follows least m' (p >>= f) (p' >>= f') c := by
  refine hp.bind fun a n _ _ _ => ?_
  refine (hf a (c.forward n) ?_).mono (Nat.sub_le ..)
  rw [Cursor.left_forward]
  omega

/-- Behind a token that has been passed the bounds are smaller by one. -/
theorem bind_passed (hp : Follows least (m' + 1) p p' c) (hc : c.left < m + 1)
    (hpass : 1 ≤ least ∨ Passes p) (hf : ∀ a, Alike m m' (f a) (f' a)) :
    Follows least (m' + 1) (p >>= f) (p' >>= f') c := by
  refine hp.bind fun a n hl hn hr => ?_
  have hpos : 1 ≤ n := by
    rcases hpass with h | h
    · exact Nat.le_trans h hl
    · have hlt := h c a _ hr
      rw [Cursor.left_forward] at hlt
      omega
  refine (hf a (c.forward n) ?_).mono (by omega)
  rw [Cursor.left_forward]
  omega

/-- What is done may depend on the token at which the cursor stands. -/
theorem current_bind {f f' : Token → Parse β}
    (h : Follows least bound (f c.current) (f' c.current) c) :
    Follows least bound (current >>= f) (current >>= f') c := by
  obtain ⟨n, hl, hn, result, hr, hd⟩ := h
  refine ⟨n, hl, hn, result, hr, fun d hb ha => ?_⟩
  have hd := hd d hb ha
  rw [← ha.current] at hd
  exact hd

theorem advance (h : c.current.kind ≠ .ending) : Follows 1 bound advance advance c := by
  obtain ⟨ts, hts⟩ := Cursor.exists_ahead_eq h
  have hl := c.left_eq
  rw [hts, List.length_cons] at hl
  refine ⟨1, Nat.le_refl 1, by omega, .ok c.current, rfl, fun d _ ha => ?_⟩
  rw [run_advance, ha.current]
  rfl

theorem expect {kind : Kind} (hk : kind ≠ .ending) (h : c.current.kind = kind) :
    Follows 1 bound (expect kind) (expect kind) c := by
  refine current_bind ?_
  rw [if_pos h]
  exact advance (h ▸ hk)

theorem selector {s : Selector} (h : c.current.selector? = some s) :
    Follows 1 bound selector selector c := by
  have hk : c.current.kind ≠ .ending := by
    intro hk
    rw [Token.selector?, hk] at h
    cases h
  refine current_bind ?_
  rw [h]
  exact (advance hk).bind fun _ _ _ _ _ =>
    ⟨0, Nat.le_refl 0, Nat.zero_le _, .ok s, rfl, fun _ _ _ => rfl⟩

end Follows

namespace Alike

theorem pure (a : α) : Alike m m' (Pure.pure a) (Pure.pure a) :=
  fun _ _ => ⟨0, Nat.le_refl 0, Nat.zero_le _, .ok a, rfl, fun _ _ _ => rfl⟩

theorem throw (fault : Diagnostic) :
    Alike m m' (MonadExcept.throw fault : Parse α) (MonadExcept.throw fault) :=
  fun _ _ => ⟨0, Nat.le_refl 0, Nat.zero_le _, .error fault, rfl, fun _ _ _ => rfl⟩

theorem bind (hp : Alike m m' p p') (hf : ∀ a, Alike m m' (f a) (f' a)) :
    Alike m m' (p >>= f) (p' >>= f') :=
  fun c hc => (hp c hc).bind_alike hc hf

theorem bind_passed (hp : Alike (m + 1) (m' + 1) p p') (hpass : Passes p)
    (hf : ∀ a, Alike m m' (f a) (f' a)) : Alike (m + 1) (m' + 1) (p >>= f) (p' >>= f') :=
  fun c hc => (hp c hc).bind_passed hc (.inr hpass) hf

theorem ite {q q' : Parse α} {b : Prop} [Decidable b] (hp : Alike m m' p p')
    (hq : Alike m m' q q') : Alike m m' (if b then p else q) (if b then p' else q') := by
  by_cases h : b
  · rwa [if_pos h, if_pos h]
  · rwa [if_neg h, if_neg h]

theorem current : Alike m m' current current := by
  refine fun c _ => ⟨0, Nat.le_refl 0, Nat.zero_le _, .ok c.current, rfl, fun d _ ha => ?_⟩
  rw [run_current, ha.current]
  rfl

theorem advance : Alike m m' advance advance := by
  intro c _
  by_cases h : c.current.kind = .ending
  · -- The end is not passed.
    have hc := Cursor.advance_of_ahead_eq_nil (Cursor.current_kind_eq_ending_iff.1 h)
    refine ⟨0, Nat.le_refl 0, Nat.zero_le _, .ok c.current, ?_, fun d _ ha => ?_⟩
    · rw [run_advance, hc]
      rfl
    · rw [← ha.current] at h
      rw [run_advance, ha.current,
        Cursor.advance_of_ahead_eq_nil (Cursor.current_kind_eq_ending_iff.1 h)]
      rfl
  · exact (Follows.advance h).weaken

theorem spanFrom (start : Position) : Alike m m' (spanFrom start) (spanFrom start) := by
  intro c _
  refine ⟨0, Nat.le_refl 0, Nat.zero_le _, .ok ⟨start, c.lastStop⟩, rfl, fun d _ ha => ?_⟩
  rw [run_spanFrom, ha.lastStop]
  rfl

theorem take (kind : Kind) (complaint : Token → Diagnostic) :
    Alike m m' (take kind complaint) (take kind complaint) :=
  current.bind fun _ => .ite advance (.throw _)

theorem expect (kind : Kind) : Alike m m' (expect kind) (expect kind) :=
  take kind _

/-- A token of a kind that may stand there decides what follows. -/
theorem of_kind {kind : Kind} (hk : kind ≠ .ending) {q q' : Parse α} (hp : Alike m m' p p')
    (hq : Alike (m + 1) (m' + 1) q q') :
    Alike (m + 1) (m' + 1)
      (Parse.current >>= fun token => if token.kind = kind then Parse.advance >>= fun _ => p else q)
      (Parse.current >>= fun token =>
        if token.kind = kind then Parse.advance >>= fun _ => p' else q') := by
  refine fun c hc => .current_bind ?_
  by_cases h : c.current.kind = kind
  · rw [if_pos h, if_pos h]
    exact ((Follows.advance (h ▸ hk)).bind_passed hc (.inl (Nat.le_refl 1)) fun _ => hp).weaken
  · rw [if_neg h, if_neg h]
    exact hq c hc

/-! ### Bounds -/

/-- With any two bounds that exceed the number of tokens left the same is done. -/
theorem run_eq (h : Alike m m' p p') (hm : c.left < m) (hm' : c.left < m') :
    p'.run c = p.run c := by
  obtain ⟨n, -, -, result, hr, hd⟩ := h c hm
  rw [hr, hd c hm' (.refl n c)]

/-- A loop with a bound does the same as the loop with a bound taken from the cursor. -/
theorem bounded {g : Nat → Parse α} (hg : ∀ m m', Alike m m' (g m) (g m')) (m m' : Nat) :
    Alike m m' (g m) (get >>= fun c : Cursor => g (c.left + 1)) := by
  intro c hc
  obtain ⟨n, hl, hn, result, hr, hd⟩ := hg m m' c hc
  refine ⟨n, hl, hn, result, hr, fun d hb ha => ?_⟩
  show (g (d.left + 1)).run d = _
  rw [(hg m' (d.left + 1)).run_eq hb (Nat.lt_succ_self _)]
  exact hd d hb ha

/-- A bound that is taken from the cursor exceeds the number of tokens left. -/
theorem get_left {g : Nat → Parse α} (hg : ∀ m m', Alike m m' (g m) (g m')) (m m' : Nat) :
    Alike m m' (get >>= fun c : Cursor => g (c.left + 1))
      (get >>= fun c : Cursor => g (c.left + 1)) :=
  fun c _ => bounded hg (c.left + 1) m' c (Nat.lt_succ_self _)

/-- A loop is alike for all bounds if one round of it is, where the rounds behind are. -/
theorem loop {ι : Type} {g : ι → Nat → Parse α}
    (h : ∀ m m', (∀ i, Alike m m' (g i m) (g i m')) →
      ∀ i, Alike (m + 1) (m' + 1) (g i (m + 1)) (g i (m' + 1))) :
    ∀ (m m' : Nat) (i : ι), Alike m m' (g i m) (g i m')
  | 0, _, _ => fun _ hc => absurd hc (Nat.not_lt_zero _)
  | m + 1, 0, i => fun c hc => by
    obtain ⟨n, hl, hn, result, hr, -⟩ := h m 0 (loop h m 0) i c hc
    exact ⟨n, hl, hn, result, hr, fun _ hb => absurd hb (Nat.not_lt_zero _)⟩
  | m + 1, m' + 1, i => h m m' (loop h m m') i

end Alike

/-! ## Tokens and blocks -/

theorem alike_single : Alike m m' single single := by
  refine Alike.current.bind fun token => ?_
  cases token.operand with
  | error fault => exact .throw fault
  | ok expr => exact Alike.advance.bind fun _ => .pure expr

theorem alike_operator : Alike m m' operator operator := by
  refine Alike.advance.bind fun token => ?_
  split
  · exact .pure _
  · exact .throw _

theorem passes_operator : Passes operator :=
  sound_operator.passes fun _ _ ⟨_, hts, _⟩ => by simp [hts]

theorem alike_selector : Alike m m' selector selector := by
  refine Alike.current.bind fun token => ?_
  cases token.selector? with
  | none => exact .throw _
  | some selector => exact Alike.advance.bind fun _ => .pure selector

theorem alike_moreSelectors (m m' : Nat) : Alike m m' (moreSelectors m) (moreSelectors m') := by
  refine Alike.loop (g := fun (_ : Unit) => moreSelectors) (fun m m' ih _ => ?_) m m' ()
  refine .of_kind (by decide) ?_ (.pure [])
  refine alike_selector.bind fun first => (ih ()).bind fun rest => ?_
  exact .pure (first :: rest)

theorem follows_selectors (h : Follows least m' selector selector c) (hc : c.left < m) :
    Follows least m' selectors selectors c := by
  refine h.bind_alike (m := m) hc fun first => ?_
  refine .get_left (g := fun bound => moreSelectors bound >>= fun rest => Pure.pure (first :: rest))
    (fun m m' => (alike_moreSelectors m m').bind fun rest => .pure (first :: rest)) m m'

theorem alike_selectors : Alike m m' selectors selectors :=
  fun c hc => follows_selectors (alike_selector c hc) hc

theorem passes_selectors : Passes selectors :=
  sound_selectors.passes fun _ _ h => by cases h; simp

section inner

variable {inner inner' : Parse (List Stmt)} (hi : Alike m m' inner inner')

include hi

theorem alike_block : Alike m m' (block inner) (block inner') := by
  refine (Alike.expect _).bind fun _ => hi.bind fun body => ?_
  exact (Alike.expect _).bind fun _ => .pure body

theorem alike_elseBlock : Alike m m' (elseBlock inner) (elseBlock inner') := by
  refine Alike.current.bind fun _ => .ite (Alike.advance.bind fun _ => ?_) (.pure none)
  exact (alike_block hi).bind fun body => .pure (some body)

theorem follows_rule (h : Follows least (m' + 1) selectors selectors c) (hc : c.left < m + 1) :
    Follows least (m' + 1) (rule inner) (rule inner') c := by
  refine .current_bind (h.bind_passed hc (.inr passes_selectors) fun selectors => ?_)
  refine (alike_block hi).bind fun body => (Alike.spanFrom _).bind fun span => ?_
  exact .pure (Stmt.rule (.clean span) selectors body)

end inner

end Parse

/-! ## Expressions and statements -/

namespace Grammar

open Parse (Alike Passes)

variable (grammar : Grammar) {m m' least bound : Nat} {c : Cursor}

theorem alike_operand : Alike m m' grammar.operand grammar.operand :=
  Alike.current.bind fun _ => .ite Parse.alike_single (.throw _)

theorem alike_operators (power : Power) (left : Expr) (m m' : Nat) :
    Alike m m' (grammar.operators m power left) (grammar.operators m' power left) := by
  refine Alike.loop (g := fun (i : Power × Expr) bound => grammar.operators bound i.1 i.2)
    (fun m m' ih i => ?_) m m' (power, left)
  refine Alike.current.bind fun token => ?_
  cases grammar.power? token.kind with
  | none => exact .pure i.2
  | some next =>
    refine .ite (.pure i.2) (Parse.alike_operator.bind_passed Parse.passes_operator fun op => ?_)
    refine (grammar.alike_operand).bind fun first => (ih (next, first)).bind fun right => ?_
    exact ih (i.1, i.2.join op right)

theorem alike_expr (power : Power) : Alike m m' (grammar.expr power) (grammar.expr power) := by
  refine grammar.alike_operand.bind fun first => ?_
  exact .get_left (g := fun bound => grammar.operators bound power first)
    (grammar.alike_operators power first) m m'

theorem alike_assignment : Alike m m' grammar.assignment grammar.assignment := by
  refine (Alike.expect _).bind fun name => (Alike.take _ _).bind fun _ => ?_
  refine (grammar.alike_expr _).bind fun value => (Alike.expect _).bind fun _ => ?_
  exact (Alike.spanFrom _).bind fun span => .pure (Stmt.assignment (.clean span) name.text value)

theorem follows_declaration
    (h : Parse.Follows least m' (Parse.expect .lowerName) (Parse.expect .lowerName) c)
    (hc : c.left < m) : Parse.Follows least m' grammar.declaration grammar.declaration c := by
  refine h.bind_alike hc fun property => (Alike.expect _).bind fun _ => ?_
  refine (grammar.alike_expr _).bind fun value => (Alike.expect _).bind fun _ => ?_
  exact (Alike.spanFrom _).bind fun span =>
    .pure (Stmt.declaration (.clean span) property.text value)

theorem alike_declaration : Alike m m' grammar.declaration grammar.declaration :=
  fun c hc => grammar.follows_declaration (Alike.expect _ c hc) hc

/-- Only a lowercase name can begin a declaration and a rule too. -/
def LowerIsName : Prop :=
  ∀ kind, grammar.form? kind = some .lower → kind = .lowerName

theorem lowerIsName_standard : standard.LowerIsName := by
  intro kind h
  cases kind with
  | word w => cases w <;> cases h
  | lowerName => rfl
  | _ => cases h

section inner

variable {inner inner' : Parse (List Stmt)} (hi : Alike m m' inner inner')

include hi

theorem alike_conditional : Alike (m + 1) (m' + 1) (grammar.conditional inner)
    (grammar.conditional inner') := by
  have hpass : Passes (Parse.expect (.word .ifWord)) :=
    (Parse.sound_expect (by decide)).passes fun _ _ h => by simp [h.1]
  refine (Alike.expect _).bind_passed hpass fun word => (Alike.expect _).bind fun _ => ?_
  refine (grammar.alike_expr _).bind fun condition => (Alike.expect _).bind fun _ => ?_
  refine (Parse.alike_block hi).bind fun body => (Parse.alike_elseBlock hi).bind fun elseBody => ?_
  exact (Alike.spanFrom _).bind fun span =>
    .pure (Stmt.conditional (.clean span) condition body elseBody)

/-- What stands behind a lowercase name decides how it is read, but it is passed either way. -/
theorem follows_lower (hk : c.current.kind = .lowerName) (hc : c.left < m + 1) :
    Parse.Follows 0 (m' + 1) (grammar.stmtOf inner .lower) (grammar.stmtOf inner' .lower) c := by
  have hdeclaration : Parse.Follows 1 (m' + 1) grammar.declaration grammar.declaration c :=
    grammar.follows_declaration (Parse.Follows.expect (by decide) hk) hc
  have hselector : c.current.selector? = some (.byTag c.current.text) := by
    rw [Token.selector?, hk]
  have hrule := Parse.follows_rule hi
    (Parse.follows_selectors (Parse.Follows.selector hselector) hc) hc
  by_cases hp : c.peek 1 = .mark .colon
  · obtain ⟨n, hl, hn, result, hr, hd⟩ := hdeclaration
    refine ⟨n, Nat.zero_le n, hn, result, ?_, fun d hb ha => ?_⟩
    · show (if c.peek 1 = .mark .colon then grammar.declaration else Parse.rule inner).run c = _
      rw [if_pos hp, hr]
    · show (if d.peek 1 = .mark .colon then grammar.declaration else Parse.rule inner').run d = _
      rw [ha.peek_one hl hn, if_pos hp, hd d hb ha]
  · obtain ⟨n, hl, hn, result, hr, hd⟩ := hrule
    refine ⟨n, Nat.zero_le n, hn, result, ?_, fun d hb ha => ?_⟩
    · show (if c.peek 1 = .mark .colon then grammar.declaration else Parse.rule inner).run c = _
      rw [if_neg hp, hr]
    · show (if d.peek 1 = .mark .colon then grammar.declaration else Parse.rule inner').run d = _
      rw [ha.peek_one hl hn, if_neg hp, hd d hb ha]

variable {grammar} (hg : grammar.LowerIsName)

include hg

theorem alike_stmtWith :
    Alike (m + 1) (m' + 1) (grammar.stmtWith inner) (grammar.stmtWith inner') := by
  refine fun c hc => .current_bind ?_
  have hrule := Parse.follows_rule hi (Parse.alike_selectors c hc) hc
  cases hf : grammar.form? c.current.kind with
  | none => exact Alike.throw _ c hc
  | some form =>
    cases form with
    | assignment => exact grammar.alike_assignment c hc
    | declaration => exact grammar.alike_declaration c hc
    | lower => exact grammar.follows_lower hi (hg _ hf) hc
    | rule => exact hrule
    | conditional => exact grammar.alike_conditional hi c hc

end inner

section grammar

variable {grammar} (hg : grammar.LowerIsName)

include hg

theorem alike_stmts (m m' : Nat) : Alike m m' (grammar.stmts m) (grammar.stmts m') := by
  refine Alike.loop (g := fun (_ : Unit) => grammar.stmts) (fun m m' ih _ => ?_) m m' ()
  have hpass : Passes (grammar.stmtWith (grammar.stmts m)) :=
    (grammar.sound_stmtWith (grammar.sound_stmts m)).passes fun _ _ => Stmt.ne_nil_of_spells
  refine Alike.current.bind fun token => .ite (.pure []) (.ite (.throw _) ?_)
  refine (alike_stmtWith (ih ()) hg).bind_passed hpass fun first => (ih ()).bind fun rest => ?_
  exact .pure (first :: rest)

theorem alike_body : Alike m m' grammar.body grammar.body :=
  .get_left (alike_stmts hg) m m'

theorem alike_stmt : Alike m m' grammar.stmt grammar.stmt := by
  intro c hc
  have h : Alike (m + 1) (m' + 1) grammar.stmt grammar.stmt := alike_stmtWith (alike_body hg) hg
  exact (h c (Nat.lt_succ_of_lt hc)).mono (Nat.le_succ m')

theorem alike_outerStmt : Alike m m' grammar.outerStmt grammar.outerStmt := by
  refine (alike_stmt hg).bind fun stmt => ?_
  cases stmt.outerFault? with
  | none => exact .pure stmt
  | some fault => exact .throw fault

theorem alike_outerStmts (m m' : Nat) :
    Alike m m' (grammar.outerStmts m) (grammar.outerStmts m') := by
  refine Alike.loop (g := fun (_ : Unit) => grammar.outerStmts) (fun m m' ih _ => ?_) m m' ()
  have hpass : Passes grammar.outerStmt :=
    (grammar.sound_outerStmt).passes fun _ _ h => Stmt.ne_nil_of_spells h.1
  refine Alike.current.bind fun token => .ite (.pure []) ?_
  refine (alike_outerStmt hg).bind_passed hpass fun first => (ih ()).bind fun rest => ?_
  exact .pure (first :: rest)

theorem alike_stylesheet : Alike m m' grammar.stylesheet grammar.stylesheet := by
  intro c hc
  -- The name of the file is read off the cursor, and is the same for both.
  have h := Alike.get_left (g := fun bound => grammar.outerStmts bound >>= fun body =>
    Parse.spanFrom ⟨0, c.file⟩ >>= fun span => pure (Stylesheet.mk (.clean span) body))
    (fun m m' => (alike_outerStmts hg m m').bind fun body => (Alike.spanFrom _).bind fun span =>
      .pure (Stylesheet.mk (.clean span) body)) m m' c hc
  obtain ⟨n, hl, hn, result, hr, hd⟩ := h
  refine ⟨n, hl, hn, result, hr, fun d hb ha => ?_⟩
  have hd := hd d hb ha
  rw [← ha.file] at hd
  exact hd

end grammar

/-- Reading a stylesheet stops before some token, and goes by the tokens up to that one alone. -/
theorem exists_run_stylesheet (hg : grammar.LowerIsName) (c : Cursor) :
    ∃ n ≤ c.left, ∃ result, grammar.stylesheet.run c = Parse.stop result (c.forward n)
      ∧ ∀ d : Cursor, c.Agree n d →
        grammar.stylesheet.run d = Parse.stop result (d.forward n) := by
  have h (m' : Nat) : Parse.Follows 0 m' grammar.stylesheet grammar.stylesheet c :=
    alike_stylesheet hg c (Nat.lt_succ_self c.left)
  obtain ⟨n, -, hn, result, hr, -⟩ := h 0
  refine ⟨n, hn, result, hr, fun d ha => ?_⟩
  obtain ⟨n', -, hn', result', hr', hd⟩ := h (d.left + 1)
  obtain ⟨rfl, hc⟩ := Parse.stop_inj (hr.symm.trans hr')
  have hleft := congrArg Cursor.left hc
  rw [Cursor.left_forward, Cursor.left_forward] at hleft
  obtain rfl : n = n' := by omega
  exact hd d (Nat.lt_succ_self _) ha

end Grammar

end StyleLang

import StyleLang.Grammar.Document
import StyleLang.Proofs.Relabel

/-!
# Tokens at other places

A relocation gives each place in a file another one, and each file another name. Reading looks at
the kinds and the texts of tokens and passes their places on: a parse from a relocated cursor gives
the relocated result, or fails with the relocated complaint (`Relocation.Carries`). It is so for
each step, and for one after another (`Relocation.Carries.bind`). So relocated tokens are read as
the relocated tree (`Stylesheet.ofTokens_relocated`).
-/

namespace StyleLang

/-- Other places for those in files. The start of a file goes to the start of one. -/
structure Relocation where
  place : Position → Position
  file : String → String
  start : ∀ name, place ⟨0, name⟩ = ⟨0, file name⟩

namespace Relocation

/-- Every place goes to the same one. -/
def blank : Relocation := ⟨fun _ => .nowhere, fun _ => Position.nowhere.file, fun _ => rfl⟩

variable (r : Relocation)

def span (span : Span) : Span := ⟨r.place span.start, r.place span.stop⟩

def token (token : Token) : Token := { token with span := r.span token.span }

def diagnostic (fault : Diagnostic) : Diagnostic := ⟨fault.cause, r.place fault.position⟩

def note (note : Note) : Note := ⟨r.span note.span, note.diagnostic.map r.diagnostic⟩

def cursor (c : Cursor) : Cursor where
  file := r.file c.file
  passed := c.passed.map r.token
  ahead := c.ahead.map r.token
  ending := r.token c.ending
  beyond := c.beyond.map r.token
  left := c.left
  left_eq := by rw [c.left_eq, List.length_map]
  ahead_kind token h := by
    obtain ⟨token', h', rfl⟩ := List.mem_map.1 h
    exact c.ahead_kind token' h'
  ending_kind := c.ending_kind

theorem kind_token (t : Token) : (r.token t).kind = t.kind := rfl

theorem text_token (t : Token) : (r.token t).text = t.text := rfl

theorem current_cursor (c : Cursor) : (r.cursor c).current = r.token c.current := by
  show (c.ahead.map r.token).headD (r.token c.ending) = r.token (c.ahead.headD c.ending)
  cases c.ahead <;> rfl

theorem advance_cursor (c : Cursor) : (r.cursor c).advance.2 = r.cursor c.advance.2 := by
  obtain ⟨file, passed, ahead, ending, beyond, left, hl, ha, he⟩ := c
  cases ahead <;> rfl

theorem lastStop_cursor (c : Cursor) : (r.cursor c).lastStop = r.place c.lastStop := by
  obtain ⟨file, passed, ahead, ending, beyond, left, hl, ha, he⟩ := c
  cases passed with
  | nil => exact (r.start file).symm
  | cons token tokens => rfl

theorem peek_cursor (c : Cursor) (places : Nat) : (r.cursor c).peek places = c.peek places := by
  unfold Cursor.peek
  dsimp only [cursor]
  rw [List.getElem?_map, List.getElem?_map, Option.map_map]
  cases c.ahead[places]? <;> rfl

theorem cursor_ofTokens (tokens : List Token) (file : String) :
    Cursor.ofTokens (tokens.map r.token) (r.file file) = r.cursor (.ofTokens tokens file) := by
  have ht : (tokens.map r.token).takeWhile (·.kind ≠ .ending)
      = (tokens.takeWhile (·.kind ≠ .ending)).map r.token := List.takeWhile_map ..
  have hd : (tokens.map r.token).dropWhile (·.kind ≠ .ending)
      = (tokens.dropWhile (·.kind ≠ .ending)).map r.token := List.dropWhile_map ..
  have hf : (tokens.map r.token).find? (·.kind = .ending)
      = (tokens.find? (·.kind = .ending)).map r.token := List.find?_map
  have he : Cursor.defaultEnding (tokens.map r.token) (r.file file)
      = r.token (Cursor.defaultEnding tokens file) := by
    rw [Cursor.defaultEnding, Cursor.defaultEnding, List.getLast?_map]
    cases tokens.getLast? with
    | none => simp [Token.ending, token, span, r.start]
    | some last => rfl
  simp only [Cursor.ofTokens, cursor, ht, hd, hf, he, List.map_tail, List.length_map,
    Option.getD_map, List.map_nil]

/-! ## Parses from relocated cursors -/

variable {α β : Type}

/-- From a relocated cursor the second parse gives the relocated result of the first, or fails with
the relocated complaint. -/
def Carries (f : α → α) (p p' : Parse α) : Prop :=
  ∀ c : Cursor, p'.run (r.cursor c) = match p.run c with
    | .ok a c' => .ok (f a) (r.cursor c')
    | .error fault c' => .error (r.diagnostic fault) (r.cursor c')

namespace Carries

variable {r} {f : α → α} {g : β → β} {p p' q q' : Parse α} {k k' : α → Parse β}

theorem pure (a : α) : r.Carries f (Pure.pure a) (Pure.pure (f a)) :=
  fun _ => rfl

theorem throw (fault : Diagnostic) :
    r.Carries f (MonadExcept.throw fault) (MonadExcept.throw (r.diagnostic fault)) :=
  fun _ => rfl

theorem bind (hp : r.Carries f p p') (hk : ∀ a, r.Carries g (k a) (k' (f a))) :
    r.Carries g (p >>= k) (p' >>= k') := by
  intro c
  have hp := hp c
  rw [EStateM.run_bind, EStateM.run_bind, hp]
  cases p.run c with
  | error fault c' => rfl
  | ok a c' => exact hk a c'

theorem get_bind {k k' : Cursor → Parse β} (hk : ∀ c, r.Carries g (k c) (k' (r.cursor c))) :
    r.Carries g (get >>= k) (get >>= k') :=
  fun c => hk c c

theorem ite {c : Prop} [Decidable c] (hp : r.Carries f p p') (hq : r.Carries f q q') :
    r.Carries f (if c then p else q) (if c then p' else q') := by
  by_cases h : c
  · rwa [if_pos h, if_pos h]
  · rwa [if_neg h, if_neg h]

theorem current : r.Carries r.token Parse.current Parse.current := by
  intro c
  rw [Parse.run_current, Parse.run_current, current_cursor]

theorem advance : r.Carries r.token Parse.advance Parse.advance := by
  intro c
  rw [Parse.run_advance, Parse.run_advance, current_cursor, advance_cursor]

theorem spanFrom (start : Position) :
    r.Carries r.span (Parse.spanFrom start) (Parse.spanFrom (r.place start)) := by
  intro c
  rw [Parse.run_spanFrom, Parse.run_spanFrom, lastStop_cursor]
  rfl

theorem take (kind : Kind) {complaint : Token → Diagnostic}
    (hc : ∀ t, complaint (r.token t) = r.diagnostic (complaint t)) :
    r.Carries r.token (Parse.take kind complaint) (Parse.take kind complaint) := by
  refine current.bind fun t => .ite advance ?_
  rw [hc]
  exact .throw _

theorem expect (kind : Kind) : r.Carries r.token (Parse.expect kind) (Parse.expect kind) :=
  .take kind fun _ => rfl

end Carries

/-! ## Tokens and blocks -/

theorem operand_token (t : Token) :
    (r.token t).operand = (t.operand.map (Expr.mapNote r.note)).mapError r.diagnostic := by
  rw [Token.operand, Token.operand, kind_token, text_token]
  cases t.kind with
  | number measure =>
    dsimp only
    cases Number.ofText? measure t.text <;> rfl
  | word word => cases word <;> rfl
  | _ => rfl

theorem selector?_token (t : Token) : (r.token t).selector? = t.selector? := rfl

theorem carries_single : r.Carries (Expr.mapNote r.note) Parse.single Parse.single := by
  refine Carries.current.bind fun t => ?_
  rw [operand_token]
  cases t.operand with
  | error fault => exact .throw fault
  | ok expr => exact Carries.advance.bind fun _ => .pure expr

theorem carries_operator : r.Carries id Parse.operator Parse.operator := by
  refine Carries.advance.bind fun t => ?_
  rw [kind_token]
  split
  · exact .pure _
  · exact .throw t.unexpected

theorem carries_selector : r.Carries id Parse.selector Parse.selector := by
  refine Carries.current.bind fun t => ?_
  rw [selector?_token]
  cases t.selector? with
  | none => exact .throw (t.misplaced .selector)
  | some selector => exact Carries.advance.bind fun _ => .pure selector

theorem carries_moreSelectors : ∀ bound,
    r.Carries id (Parse.moreSelectors bound) (Parse.moreSelectors bound)
  | 0 => .pure []
  | bound + 1 => by
    refine Carries.current.bind fun t => .ite (Carries.advance.bind fun _ => ?_) (.pure [])
    refine r.carries_selector.bind fun first => ?_
    exact (carries_moreSelectors bound).bind fun rest => .pure (first :: rest)

theorem carries_selectors : r.Carries id Parse.selectors Parse.selectors := by
  refine r.carries_selector.bind fun first => .get_bind fun c => ?_
  exact (r.carries_moreSelectors _).bind fun rest => .pure (first :: rest)

section inner

variable {r} {inner : Parse (List Stmt)} (hi : r.Carries (Stmt.bodyMapNote r.note) inner inner)

include hi

theorem carries_block :
    r.Carries (Stmt.bodyMapNote r.note) (Parse.block inner) (Parse.block inner) := by
  refine (Carries.expect _).bind fun _ => hi.bind fun body => ?_
  exact (Carries.expect _).bind fun _ => .pure body

theorem carries_elseBlock : r.Carries (Option.map (Stmt.bodyMapNote r.note))
    (Parse.elseBlock inner) (Parse.elseBlock inner) := by
  refine Carries.current.bind fun t => .ite (Carries.advance.bind fun _ => ?_) (.pure none)
  exact (carries_block hi).bind fun body => .pure (some body)

theorem carries_rule : r.Carries (Stmt.mapNote r.note) (Parse.rule inner) (Parse.rule inner) := by
  refine Carries.current.bind fun t => r.carries_selectors.bind fun selectors => ?_
  refine (carries_block hi).bind fun body => (Carries.spanFrom _).bind fun span => ?_
  exact .pure (Stmt.rule (.clean span) selectors body)

end inner

/-! ## Expressions and statements -/

variable (grammar : Grammar)

theorem carries_operand : r.Carries (Expr.mapNote r.note) grammar.operand grammar.operand :=
  Carries.current.bind fun t => .ite r.carries_single (.throw (t.misplaced .operand))

theorem mapNote_join (left : Expr) (op : Operator) (right : Expr) :
    (left.join op right).mapNote r.note
      = (left.mapNote r.note).join op (right.mapNote r.note) := by
  have h (e : Expr) : (e.mapNote r.note).span = r.span e.span := by
    rw [Expr.span, Expr.note_mapNote]
    rfl
  rw [Expr.join, Expr.join, h, h]
  rfl

theorem carries_operators : ∀ (bound : Nat) (power : Power) (left : Expr),
    r.Carries (Expr.mapNote r.note) (grammar.operators bound power left)
      (grammar.operators bound power (left.mapNote r.note))
  | 0, _, left => .pure left
  | bound + 1, power, left => by
    refine Carries.current.bind fun t => ?_
    rw [kind_token]
    split
    · exact .pure left
    · refine .ite (.pure left) (r.carries_operator.bind fun op => ?_)
      refine (r.carries_operand grammar).bind fun first => ?_
      refine (carries_operators bound _ first).bind fun right => ?_
      rw [id_eq, ← mapNote_join]
      exact carries_operators bound power (left.join op right)

theorem carries_expr (power : Power) :
    r.Carries (Expr.mapNote r.note) (grammar.expr power) (grammar.expr power) := by
  refine (r.carries_operand grammar).bind fun first => .get_bind fun c => ?_
  exact r.carries_operators grammar _ power first

theorem carries_assignment :
    r.Carries (Stmt.mapNote r.note) grammar.assignment grammar.assignment := by
  refine (Carries.expect _).bind fun name => (Carries.take _ fun _ => rfl).bind fun _ => ?_
  refine (r.carries_expr grammar _).bind fun value => (Carries.expect _).bind fun _ => ?_
  refine (Carries.spanFrom _).bind fun span => ?_
  exact .pure (Stmt.assignment (.clean span) name.text value)

theorem carries_declaration :
    r.Carries (Stmt.mapNote r.note) grammar.declaration grammar.declaration := by
  refine (Carries.expect _).bind fun property => (Carries.expect _).bind fun _ => ?_
  refine (r.carries_expr grammar _).bind fun value => (Carries.expect _).bind fun _ => ?_
  refine (Carries.spanFrom _).bind fun span => ?_
  exact .pure (Stmt.declaration (.clean span) property.text value)

section inner

variable {r} {inner : Parse (List Stmt)} (hi : r.Carries (Stmt.bodyMapNote r.note) inner inner)

include hi

theorem carries_conditional :
    r.Carries (Stmt.mapNote r.note) (grammar.conditional inner) (grammar.conditional inner) := by
  refine (Carries.expect _).bind fun word => (Carries.expect _).bind fun _ => ?_
  refine (r.carries_expr grammar _).bind fun condition => (Carries.expect _).bind fun _ => ?_
  refine (carries_block hi).bind fun body => (carries_elseBlock hi).bind fun elseBody => ?_
  refine (Carries.spanFrom _).bind fun span => ?_
  cases elseBody with
  | none => exact .pure (Stmt.conditional (.clean span) condition body none)
  | some elseBody =>
    exact .pure (Stmt.conditional (.clean span) condition body (some elseBody))

theorem carries_stmtOf (form : Form) : r.Carries (Stmt.mapNote r.note)
    (grammar.stmtOf inner form) (grammar.stmtOf inner form) := by
  cases form with
  | assignment => exact r.carries_assignment grammar
  | declaration => exact r.carries_declaration grammar
  | lower =>
    refine .get_bind fun c => ?_
    rw [peek_cursor]
    exact .ite (r.carries_declaration grammar) (carries_rule hi)
  | rule => exact carries_rule hi
  | conditional => exact carries_conditional grammar hi

theorem carries_stmtWith : r.Carries (Stmt.mapNote r.note)
    (grammar.stmtWith inner) (grammar.stmtWith inner) := by
  refine Carries.current.bind fun t => ?_
  rw [kind_token]
  split
  · exact carries_stmtOf grammar hi _
  · exact .throw (t.misplaced .statement)

end inner

theorem carries_stmts : ∀ bound,
    r.Carries (Stmt.bodyMapNote r.note) (grammar.stmts bound) (grammar.stmts bound)
  | 0 => .pure []
  | bound + 1 => by
    refine Carries.current.bind fun t => .ite (.pure []) (.ite (.throw (t.misplaced .closing)) ?_)
    refine (carries_stmtWith grammar (carries_stmts bound)).bind fun first => ?_
    exact (carries_stmts bound).bind fun rest => .pure (first :: rest)

theorem carries_stmt : r.Carries (Stmt.mapNote r.note) grammar.stmt grammar.stmt :=
  carries_stmtWith grammar (.get_bind fun _ => r.carries_stmts grammar _)

theorem outerFault?_mapNote (s : Stmt) :
    (s.mapNote r.note).outerFault? = s.outerFault?.map r.diagnostic := by
  cases s with
  | conditional note condition body elseBody => cases elseBody <;> rfl
  | _ => rfl

theorem carries_outerStmt :
    r.Carries (Stmt.mapNote r.note) grammar.outerStmt grammar.outerStmt := by
  refine (r.carries_stmt grammar).bind fun s => ?_
  rw [outerFault?_mapNote]
  cases s.outerFault? with
  | none => exact .pure s
  | some fault => exact .throw fault

theorem carries_outerStmts : ∀ bound,
    r.Carries (Stmt.bodyMapNote r.note) (grammar.outerStmts bound) (grammar.outerStmts bound)
  | 0 => .pure []
  | bound + 1 => by
    refine Carries.current.bind fun t => .ite (.pure []) ?_
    refine (r.carries_outerStmt grammar).bind fun first => ?_
    exact (carries_outerStmts bound).bind fun rest => .pure (first :: rest)

theorem carries_stylesheet :
    r.Carries (Stylesheet.mapNote r.note) grammar.stylesheet grammar.stylesheet := by
  refine .get_bind fun c => .get_bind fun c' => ?_
  refine (r.carries_outerStmts grammar _).bind fun body => ?_
  show r.Carries _ _ (Parse.spanFrom ⟨0, r.file c.file⟩ >>= _)
  rw [← r.start]
  exact (Carries.spanFrom _).bind fun span => .pure (Stylesheet.mk (.clean span) body)

end Relocation

/-- Relocated tokens are read as the relocated tree, or fail with the relocated complaint. -/
theorem Stylesheet.ofTokens_relocated (r : Relocation) (tokens : List Token) (file : String) :
    ofTokens (tokens.map r.token) (r.file file)
      = ((ofTokens tokens file).map (mapNote r.note)).mapError r.diagnostic := by
  unfold ofTokens
  rw [r.cursor_ofTokens, r.carries_stylesheet]
  cases Grammar.standard.stylesheet.run (.ofTokens tokens file) <;> rfl

end StyleLang

import StyleLang.Proofs.FirstEnd

/-!
# Reading goes forward

Whatever is asked of a grammar and a cursor, the cursor stays where it is or goes on, and never
past the first end; and what is read as an expression, a statement or a block takes a token at
least (`Parser.call_forward`, `Parser.call_passes`). This holds for any entries that have been
added to the grammar, for the end too, and from wherever an earlier failure has left the cursor.

The bounds on the rounds of the loops do not matter: no loop runs out of rounds, and each does what
it would do without a bound (`Grammar.Unbounded`).
-/

namespace StyleLang

namespace Parse

variable {α β : Type}

/-- The parse goes on by some tokens, at most up to the end, whether it comes to a result or not. -/
def Forward (p : Parse α) : Prop :=
  ∀ c : Cursor, ∃ n ≤ c.left, ∃ result, p.run c = stop result (c.forward n)

theorem Follows.exists_run {p p' : Parse α} {c : Cursor} {least bound : Nat}
    (h : Follows least bound p p' c) :
    ∃ n ≤ c.left, ∃ result, p.run c = stop result (c.forward n) := by
  obtain ⟨n, -, hn, result, hr, -⟩ := h
  exact ⟨n, hn, result, hr⟩

theorem Forward.of_alike {p p' : Parse α} (h : ∀ m, Alike m 0 p p') : Forward p :=
  fun c => (h (c.left + 1) c (Nat.lt_succ_self _)).exists_run

theorem Passes.bind {p : Parse α} {f : α → Parse β} (hp : Passes p) (hf : ∀ a, Forward (f a)) :
    Passes (p >>= f) := by
  intro c b c' h
  rw [EStateM.run_bind] at h
  cases hr : p.run c with
  | error fault d =>
    rw [hr] at h
    cases h
  | ok a d =>
    rw [hr] at h
    obtain ⟨n, -, result, hn⟩ := hf a d
    have hstop : stop result (d.forward n) = stop (.ok b) c' := hn.symm.trans h
    obtain ⟨-, rfl⟩ := stop_inj hstop
    have hlt := hp c a d hr
    rw [Cursor.left_forward]
    omega

/-! ## Loops without bounds -/

/-- A round that is like the first of a loop makes the loop, with a bound taken from the cursor. -/
theorem Alike.loop_eq {g : Nat → Parse α} {round : Parse α}
    (h : ∀ m m', Alike (m + 1) (m' + 1) (g (m + 1)) round) :
    (get >>= fun c : Cursor => g (c.left + 1)) = round :=
  funext fun c => ((h c.left c.left).run_eq (Nat.lt_succ_self _) (Nat.lt_succ_self _)).symm

/-- Reads further selectors, as long as there is a comma. -/
def furtherSelectors : Parse (List Selector) := do
  moreSelectors ((← get).left + 1)

end Parse

namespace Grammar

open Parse (Alike Forward Passes)

/-- Joins `left` with what follows it, as long as operators bind more strongly than `power`. -/
def joined (grammar : Grammar) (power : Power) (left : Expr) : Parse Expr := do
  grammar.operators ((← get).left + 1) power left

/-- Each loop is one round of it and then the loop again, where the rounds have no bound. -/
structure Unbounded (grammar : Grammar) : Prop where
  selectors : Parse.selectors = do
    let first ← Parse.selector
    let rest ← Parse.furtherSelectors
    return first :: rest
  furtherSelectors : Parse.furtherSelectors = do
    if (← Parse.current).kind = .mark .comma then
      let _ ← Parse.advance
      let first ← Parse.selector
      let rest ← Parse.furtherSelectors
      return first :: rest
    else return []
  expr : ∀ power, grammar.expr power = do
    let first ← grammar.operand
    grammar.joined power first
  joined : ∀ power left, grammar.joined power left = do
    match grammar.power? (← Parse.current).kind with
    | none => return left
    | some next =>
      if next ≤ power then return left
      else
        let left ← grammar.binary left next
        grammar.joined power left
  body : grammar.body = do
    let token ← Parse.current
    if token.kind = .mark .closeCurly then return []
    else if token.kind = .ending then throw (token.misplaced .closing)
    else
      let first ← grammar.stmt
      let rest ← grammar.body
      return first :: rest

variable {grammar : Grammar}

theorem expr_eq (grammar : Grammar) (power : Power) :
    grammar.expr power = grammar.operand >>= grammar.joined power := rfl

theorem unbounded (hg : grammar.LowerIsName) : grammar.Unbounded where
  selectors := rfl
  furtherSelectors := by
    refine Alike.loop_eq fun m m' => ?_
    refine .of_kind (by decide) ?_ (.pure [])
    refine Parse.alike_selector.bind fun first => ?_
    exact (Alike.bounded Parse.alike_moreSelectors m m').bind fun rest => .pure (first :: rest)
  expr := grammar.expr_eq
  joined power left := by
    have hbounded (power : Power) (left : Expr) (m m' : Nat) :
        Alike m m' (grammar.operators m power left) (grammar.joined power left) :=
      .bounded (grammar.alike_operators power left) m m'
    refine Alike.loop_eq (g := fun bound => grammar.operators bound power left) fun m m' => ?_
    refine Alike.current.bind fun token => ?_
    cases grammar.power? token.kind with
    | none => exact .pure left
    | some next =>
      refine .ite (.pure left) ?_
      simp only [binary, bind_assoc, pure_bind]
      refine Parse.alike_operator.bind_passed Parse.passes_operator fun op => ?_
      rw [expr_eq, bind_assoc]
      refine grammar.alike_operand.bind fun first => ?_
      refine (hbounded next first m m').bind fun right => ?_
      exact hbounded power (left.join op right) m m'
  body := by
    have hbounded (m m' : Nat) : Alike m m' (grammar.stmts m) grammar.body :=
      .bounded (alike_stmts hg) m m'
    refine Alike.loop_eq fun m m' => ?_
    have hpass : Passes (grammar.stmtWith (grammar.stmts m)) :=
      (grammar.sound_stmtWith (grammar.sound_stmts m)).passes fun _ _ => Stmt.ne_nil_of_spells
    refine Alike.current.bind fun token => .ite (.pure []) (.ite (.throw _) ?_)
    refine (alike_stmtWith (hbounded m m') hg).bind_passed hpass fun first => ?_
    exact (hbounded m m').bind fun rest => .pure (first :: rest)

/-! ## What goes forward -/

theorem forward_expr (power : Power) : Forward (grammar.expr power) :=
  .of_alike fun _ => grammar.alike_expr power

theorem forward_binary (left : Expr) (power : Power) : Forward (grammar.binary left power) :=
  .of_alike fun _ => Parse.alike_operator.bind fun op =>
    (grammar.alike_expr power).bind fun right => .pure (left.join op right)

theorem passes_binary (left : Expr) (power : Power) : Passes (grammar.binary left power) :=
  Parse.passes_operator.bind fun op => .of_alike fun _ =>
    (grammar.alike_expr power).bind fun right => .pure (left.join op right)

theorem sound_body (grammar : Grammar) :
    Parse.Sound grammar.body fun ts body => Stmt.BodySpells body ts :=
  .get_bind fun _ => grammar.sound_stmts _

section

variable (hg : grammar.LowerIsName)

include hg

theorem forward_rule : Forward (Parse.rule grammar.body) := by
  intro c
  have hbody : Alike c.left 0 grammar.body grammar.body := alike_body hg
  have hselectors : Parse.Follows 0 1 Parse.selectors Parse.selectors c :=
    Parse.alike_selectors c (Nat.lt_succ_self _)
  exact (Parse.follows_rule hbody hselectors (Nat.lt_succ_self _)).exists_run

/-- A form may be asked for at any token. So a declaration or a rule may be asked for at the end,
where it depends on what stands behind the end which of the two is tried, but neither passes it. -/
theorem forward_stmtOf (form : Form) : Forward (grammar.stmtOf grammar.body form) := by
  cases form with
  | assignment => exact .of_alike fun _ => grammar.alike_assignment
  | declaration => exact .of_alike fun _ => grammar.alike_declaration
  | lower =>
    intro c
    show ∃ n ≤ c.left, ∃ result, (if c.peek 1 = .mark .colon then grammar.declaration
      else Parse.rule grammar.body).run c = Parse.stop result (c.forward n)
    split
    · exact Forward.of_alike (fun _ => grammar.alike_declaration) c
    · exact forward_rule hg c
  | rule => exact forward_rule hg
  | conditional =>
    intro c
    have hbody : Alike c.left 0 grammar.body grammar.body := alike_body hg
    exact (grammar.alike_conditional hbody c (Nat.lt_succ_self _)).exists_run

end

/-! ## Entries -/

/-- What can be added to a grammar. -/
inductive Entry where
  | operand (kind : Kind)
  | power (kind : Kind) (power : Power)
  | rule (kind : Kind)

def add (grammar : Grammar) : Entry → Grammar
  | .operand kind => grammar.withOperand kind
  | .power kind power => grammar.withPower kind power
  | .rule kind => grammar.withForm kind .rule

/-- What comes of adding entries to the standard grammar, or to the one that knows no kind. -/
inductive Extends : Grammar → Prop
  | bare : Extends bare
  | standard : Extends standard
  | add {grammar : Grammar} (entry : Entry) : Extends grammar → Extends (grammar.add entry)

theorem Extends.lowerIsName (h : grammar.Extends) : grammar.LowerIsName := by
  induction h with
  | bare => exact nofun
  | standard => exact lowerIsName_standard
  | @add grammar entry _ ih =>
    cases entry with
    | operand kind => exact ih
    | power kind power => exact ih
    | rule kind =>
      intro k hk
      simp only [Grammar.add, withForm] at hk
      split at hk
      · cases hk
      · exact ih k hk

end Grammar

/-! ## Calls -/

/-- A grammar and a cursor, of which the parts of a stylesheet can be asked one by one. -/
structure Parser where
  grammar : Grammar
  cursor : Cursor

namespace Parser

inductive Call where
  | add (entry : Grammar.Entry)
  | advance
  | take (kind : Kind) (complaint : Token → Diagnostic)
  | expr (power : Power)
  | single
  | binary (left : Expr) (power : Power)
  | stmt
  | stmtOf (form : Form)
  | block

/-- The call is for an expression, a statement or a block. -/
def Call.IsPart : Call → Prop
  | .add _ | .advance | .take _ _ => False
  | .expr _ | .single | .binary _ _ | .stmt | .stmtOf _ | .block => True

variable {α : Type}

/-- A parse leaves the cursor where it has come to a result, or where it has failed. -/
def read (parser : Parser) (p : Parse α) : Except Diagnostic Unit × Parser :=
  match p.run parser.cursor with
  | .ok _ cursor => (.ok (), ⟨parser.grammar, cursor⟩)
  | .error fault cursor => (.error fault, ⟨parser.grammar, cursor⟩)

/-- Answers a call by whether it succeeds, and by the parser behind it. -/
def call (parser : Parser) : Call → Except Diagnostic Unit × Parser
  | .add entry => (.ok (), ⟨parser.grammar.add entry, parser.cursor⟩)
  | .advance => parser.read Parse.advance
  | .take kind complaint => parser.read (Parse.take kind complaint)
  | .expr power => parser.read (parser.grammar.expr power)
  | .single => parser.read Parse.single
  | .binary left power => parser.read (parser.grammar.binary left power)
  | .stmt => parser.read parser.grammar.stmt
  | .stmtOf form => parser.read (parser.grammar.stmtOf parser.grammar.body form)
  | .block => parser.read parser.grammar.block

/-- The parser after calls, of which any may fail. -/
def after (parser : Parser) (calls : List Call) : Parser :=
  calls.foldl (fun parser call => (parser.call call).2) parser

variable {parser : Parser} {p : Parse α}

theorem grammar_read (p : Parse α) : (parser.read p).2.grammar = parser.grammar := by
  unfold read
  split <;> rfl

theorem read_forward (h : Parse.Forward p) :
    ∃ n ≤ parser.cursor.left, (parser.read p).2.cursor = parser.cursor.forward n := by
  obtain ⟨n, hn, result, hr⟩ := h parser.cursor
  refine ⟨n, hn, ?_⟩
  rw [read, hr]
  cases result <;> rfl

theorem read_passes (h : Parse.Passes p) (hok : (parser.read p).1 = .ok ()) :
    (parser.read p).2.cursor.left < parser.cursor.left := by
  unfold read at hok ⊢
  split at hok
  · rename_i a cursor hr
    exact h parser.cursor a cursor hr
  · cases hok

theorem extends_call (h : parser.grammar.Extends) (call : Call) :
    (parser.call call).2.grammar.Extends := by
  cases call with
  | add entry => exact .add entry h
  | _ => exact (grammar_read _).symm ▸ h

/-- A call goes on by some tokens or by none, but not past the end. -/
theorem call_forward (h : parser.grammar.LowerIsName) (call : Call) :
    ∃ n ≤ parser.cursor.left, (parser.call call).2.cursor = parser.cursor.forward n := by
  cases call with
  | add entry => exact ⟨0, Nat.zero_le _, rfl⟩
  | advance => exact read_forward (.of_alike fun _ => .advance)
  | take kind complaint => exact read_forward (.of_alike fun _ => .take kind complaint)
  | expr power => exact read_forward (Grammar.forward_expr power)
  | single => exact read_forward (.of_alike fun _ => Parse.alike_single)
  | binary left power => exact read_forward (Grammar.forward_binary left power)
  | stmt => exact read_forward (.of_alike fun _ => Grammar.alike_stmt h)
  | stmtOf form => exact read_forward (Grammar.forward_stmtOf h form)
  | block => exact read_forward (.of_alike fun _ => Parse.alike_block (Grammar.alike_body h))

/-- An expression, a statement and a block have a token at least. -/
theorem call_passes {call : Call} (hcall : call.IsPart) (hok : (parser.call call).1 = .ok ()) :
    (parser.call call).2.cursor.left < parser.cursor.left := by
  have hstmt (form : Form) := parser.grammar.sound_stmtOf parser.grammar.sound_body form
  cases call with
  | add | advance | take => exact hcall.elim
  | expr power =>
    have hp := (parser.grammar.sound_expr power).passes fun _ _ => Expr.ne_nil_of_spells
    exact read_passes hp hok
  | single =>
    exact read_passes (Parse.sound_single.passes fun _ _ ⟨_, hts, _⟩ => by simp [hts]) hok
  | binary left power => exact read_passes (Grammar.passes_binary left power) hok
  | stmt =>
    exact read_passes (parser.grammar.sound_stmt.passes fun _ _ => Stmt.ne_nil_of_spells) hok
  | stmtOf form => exact read_passes ((hstmt form).passes fun _ _ => Stmt.ne_nil_of_spells) hok
  | block =>
    exact read_passes ((Parse.sound_block parser.grammar.sound_body).passes
      fun _ _ => Stmt.ne_nil_of_blockSpells) hok

/-- The cursor is on its way to the end after any calls. -/
theorem after_forward (h : parser.grammar.Extends) (calls : List Call) :
    (parser.after calls).grammar.Extends
      ∧ ∃ n ≤ parser.cursor.left, (parser.after calls).cursor = parser.cursor.forward n := by
  induction calls generalizing parser with
  | nil => exact ⟨h, 0, Nat.zero_le _, rfl⟩
  | cons call calls ih =>
    obtain ⟨m, hm, hcall⟩ := call_forward h.lowerIsName call
    obtain ⟨hgrammar, n, hn, hcalls⟩ := ih (extends_call h call)
    rw [hcall, Cursor.left_forward] at hn
    rw [hcall, Cursor.forward_forward] at hcalls
    exact ⟨hgrammar, m + n, by omega, hcalls⟩

end Parser

/-- The first end of a list stands behind the tokens that are to come at its start. -/
theorem Cursor.findIdx_closed (tokens : List Token) (file : String) :
    (Token.closed tokens file).findIdx (·.kind = .ending) = (ofTokens tokens file).left := by
  obtain ⟨rest, h⟩ := toCome_prefix_closed tokens file
  have hahead := (ofTokens tokens file).ahead_kind
  rw [← h, toCome, List.append_assoc, List.findIdx_append,
    List.findIdx_eq_length_of_false (by simpa using hahead), if_neg (Nat.lt_irrefl _),
    List.singleton_append, List.findIdx_cons, (ofTokens tokens file).left_eq]
  simp [(ofTokens tokens file).ending_kind]

/-- After any calls to a parser for a list of tokens, whatever has been added to its grammar, the
next one comes to an end: no loop runs out of rounds, and each does what it would do without a bound
on them. It passes tokens one after the other from where the last call has left off, at most up to
the first end of the list, and every cursor on the way stands in the list. Where a part of a
stylesheet is asked for and read, a token has been passed. -/
theorem Parser.call_advances (tokens : List Token) (file : String) {grammar : Grammar}
    (hg : grammar.Extends) (calls : List Call) (call : Call) :
    let list := Token.closed tokens file
    let before := after ⟨grammar, .ofTokens tokens file⟩ calls
    let behind := (before.call call).2
    (∀ c, before.grammar.Unhindered c) ∧ before.grammar.Unbounded
      ∧ (∃ n, behind.cursor = before.cursor.forward n
        ∧ ∀ m ≤ n, (before.cursor.forward m).position = before.cursor.position + m
          ∧ (before.cursor.forward m).At list)
      ∧ before.cursor.position ≤ behind.cursor.position
      ∧ behind.cursor.position ≤ list.findIdx (·.kind = .ending)
      ∧ list.findIdx (·.kind = .ending) < list.length
      ∧ (call.IsPart → (before.call call).1 = .ok () →
        before.cursor.position < behind.cursor.position) := by
  intro list before behind
  have hafter : before.grammar.Extends ∧ ∃ k ≤ (Cursor.ofTokens tokens file).left,
      before.cursor = (Cursor.ofTokens tokens file).forward k := after_forward hg calls
  obtain ⟨hgrammar, k, hk, hbefore⟩ := hafter
  have hlower : before.grammar.LowerIsName := hgrammar.lowerIsName
  obtain ⟨n, hn, hbehind⟩ := call_forward hlower call
  have hleft : before.cursor.left = (Cursor.ofTokens tokens file).left - k := by
    rw [hbefore, Cursor.left_forward]
  have hplace {m : Nat} (hm : k + m ≤ (Cursor.ofTokens tokens file).left) :
      (before.cursor.forward m).position = k + m ∧ (before.cursor.forward m).At list := by
    rw [hbefore, Cursor.forward_forward]
    exact Cursor.at_forward tokens file hm
  have hfirst : before.cursor.position = k := (hplace (m := 0) hk).1
  have hlast : behind.cursor.position = k + n := by
    rw [hbehind]
    exact (hplace (by omega)).1
  refine ⟨Grammar.unhindered hlower, Grammar.unbounded hlower,
    ⟨n, hbehind, fun m hm => ?_⟩, by omega, ?_, ?_, fun hcall hok => ?_⟩
  · rw [hfirst]
    exact hplace (by omega)
  · rw [hlast, Cursor.findIdx_closed]
    omega
  · rw [Cursor.findIdx_closed]
    have hlength := (Cursor.toCome_prefix_closed tokens file).length_le
    rw [Cursor.length_toCome] at hlength
    exact hlength
  · have hlt : behind.cursor.left < before.cursor.left := call_passes hcall hok
    rw [hbehind, Cursor.left_forward] at hlt
    omega

/-- Where the end may begin a statement and join operands, the statement asked for at a colon
fails, the colon is passed, and then the only operand before the first end. -/
theorem Parser.call_advances_colon :
    let token (kind : Kind) (text : String) (start : Nat) : Token :=
      .ofPiece "a.icss" start kind text.toList
    let tokens := [token (.mark .colon) ":" 0, token .capitalName "A" 1, .ending ⟨2, "a.icss"⟩,
      token .capitalName "B" 2]
    let grammar := (Grammar.standard.add (.power .ending .additive)).add (.rule .ending)
    let before := after ⟨grammar, .ofTokens tokens "a.icss"⟩ [.stmt, .advance]
    let behind := (before.call .single).2
    grammar.Extends ∧ Call.single.IsPart ∧ (before.call .single).1 = .ok ()
      ∧ before.cursor.position < behind.cursor.position ∧ behind.cursor.position ≤ 2 := by
  intro token tokens grammar before behind
  have hgrammar : grammar.Extends := .add _ (.add _ .standard)
  have hok : (before.call .single).1 = .ok () := rfl
  have hend : (Token.closed tokens "a.icss").findIdx (·.kind = .ending) = 2 := by decide
  obtain ⟨-, -, -, -, hlast, -, hmoved⟩ :=
    call_advances tokens "a.icss" hgrammar [.stmt, .advance] .single
  exact ⟨hgrammar, trivial, hok, hmoved trivial hok, hend ▸ hlast⟩

end StyleLang

import StyleLang.Tree
import StyleLang.Token

/-!
# The grammar of stylesheets

An outline is what is left of a statement without its notes and without the grouping of its
expressions, which are rows of operands then. `Outline.Derives` and the relations around it are
the productions of the grammar, and say which lists of tokens an outline derives.

`Stmt.outline` is the outline of a statement, `Expr.row` the row of an expression.
-/

namespace StyleLang

inductive Operand where
  | literal (value : Literal)
  | name (name : String)
deriving DecidableEq

/-- Operands joined by operators, as they are written. -/
structure Row where
  first : Operand
  others : List (Operator × Operand)
deriving DecidableEq

inductive Outline where
  | rule (selectors : List Selector) (body : List Outline)
  | declaration (property : String) (value : Row)
  | assignment (name : String) (value : Row)
  | conditional (condition : Row) (body : List Outline) (elseBody : Option (List Outline))

/-- The operand is written as the token; a number is one that fits 32 bits. -/
inductive Operand.Derives : Operand → Token → Prop
  | number {token : Token} {measure : Measure} {value : Number} {digits : List Char} :
      token.kind = .number measure → token.text.toList = digits ++ measure.suffix.toList →
      value.toInt = Nat.ofDigitChars 10 digits 0 →
      Derives (.literal (.number measure value)) token
  | color {token : Token} : token.kind = .color → Derives (.literal (.color token.text)) token
  | boolean {token : Token} {value : Bool} : token.kind = .word (.boolean value) →
      Derives (.literal (.boolean value)) token
  | name {token : Token} : token.kind = .capitalName → Derives (.name token.text) token

namespace Row

/-- Operands behind the first, each behind an operator. -/
inductive OthersDerive : List (Operator × Operand) → List Token → Prop
  | nil : OthersDerive [] []
  | cons {operator operand : Token} {op : Operator} {x : Operand}
      {others : List (Operator × Operand)} {ts : List Token} :
      operator.kind = .operator op → x.Derives operand → OthersDerive others ts →
      OthersDerive ((op, x) :: others) (operator :: operand :: ts)

/-- `primary (('+' | '-' | '*') primary)*` -/
inductive Derives : Row → List Token → Prop
  | mk {token : Token} {x : Operand} {others : List (Operator × Operand)} {ts : List Token} :
      x.Derives token → OthersDerive others ts → Derives ⟨x, others⟩ (token :: ts)

end Row

namespace Selector

def kind : Selector → Kind
  | byTag _ => .lowerName
  | byId _ => .idName
  | byClass _ => .className

/-- The selector is written as the token. -/
structure Derives (selector : Selector) (token : Token) : Prop where
  kind_eq : token.kind = selector.kind
  text_eq : token.text = selector.text

/-- Selectors behind the first, each behind a comma. -/
inductive OthersDerive : List Selector → List Token → Prop
  | nil : OthersDerive [] []
  | cons {comma token : Token} {selector : Selector} {others : List Selector}
      {ts : List Token} :
      comma.kind = .mark .comma → selector.Derives token → OthersDerive others ts →
      OthersDerive (selector :: others) (comma :: token :: ts)

/-- `selector (',' selector)*` -/
inductive ListDerives : List Selector → List Token → Prop
  | cons {token : Token} {selector : Selector} {others : List Selector} {ts : List Token} :
      selector.Derives token → OthersDerive others ts →
      ListDerives (selector :: others) (token :: ts)

end Selector

namespace Outline

mutual

/-- The four forms of statements. -/
inductive Derives : Outline → List Token → Prop
  | assignment {name assign semicolon : Token} {value : Row} {ts : List Token} :
      name.kind = .capitalName → assign.kind = .mark .assign → value.Derives ts →
      semicolon.kind = .mark .semicolon →
      Derives (.assignment name.text value) (name :: assign :: (ts ++ [semicolon]))
  | declaration {property colon semicolon : Token} {value : Row} {ts : List Token} :
      property.kind = .lowerName → colon.kind = .mark .colon → value.Derives ts →
      semicolon.kind = .mark .semicolon →
      Derives (.declaration property.text value) (property :: colon :: (ts ++ [semicolon]))
  | rule {selectors : List Selector} {body : List Outline} {ts us : List Token} :
      Selector.ListDerives selectors ts → BlockDerives body us →
      Derives (.rule selectors body) (ts ++ us)
  | conditional {word opening closing : Token} {condition : Row} {body : List Outline}
      {elseBody : Option (List Outline)} {ts us vs : List Token} :
      word.kind = .word .ifWord → opening.kind = .mark .openBracket → condition.Derives ts →
      closing.kind = .mark .closeBracket → BlockDerives body us → ElseDerives elseBody vs →
      Derives (.conditional condition body elseBody)
        (word :: opening :: (ts ++ closing :: (us ++ vs)))

/-- `'{' body '}'` -/
inductive BlockDerives : List Outline → List Token → Prop
  | mk {opening closing : Token} {body : List Outline} {ts : List Token} :
      opening.kind = .mark .openCurly → BodyDerives body ts →
      closing.kind = .mark .closeCurly → BlockDerives body (opening :: (ts ++ [closing]))

/-- `('else' '{' body '}')?` -/
inductive ElseDerives : Option (List Outline) → List Token → Prop
  | none : ElseDerives none []
  | some {word : Token} {body : List Outline} {ts : List Token} :
      word.kind = .word .elseWord → BlockDerives body ts → ElseDerives (some body) (word :: ts)

/-- `(declaration | assignment | if | rule)*` -/
inductive BodyDerives : List Outline → List Token → Prop
  | nil : BodyDerives [] []
  | cons {first : Outline} {others : List Outline} {ts us : List Token} :
      first.Derives ts → BodyDerives others us → BodyDerives (first :: others) (ts ++ us)

end

/-- Rules and assignments may stand outside of rules. -/
def IsOuter : Outline → Prop
  | rule _ _ | assignment _ _ => True
  | declaration _ _ | conditional _ _ _ => False

/-- `(assignment | rule)*` -/
inductive SheetDerives : List Outline → List Token → Prop
  | nil : SheetDerives [] []
  | cons {first : Outline} {others : List Outline} {ts us : List Token} :
      first.Derives ts → first.IsOuter → SheetDerives others us →
      SheetDerives (first :: others) (ts ++ us)

end Outline

/-- The operands of an expression and the operators between them, from left to right. -/
def Expr.row : Expr → Row
  | literal _ value => ⟨.literal value, []⟩
  | var _ name => ⟨.name name, []⟩
  | binary _ op left right =>
    ⟨left.row.first, left.row.others ++ (op, right.row.first) :: right.row.others⟩

namespace Stmt

mutual

def outline : Stmt → Outline
  | rule _ selectors body => .rule selectors (bodyOutline body)
  | declaration _ property value => .declaration property value.row
  | assignment _ name value => .assignment name value.row
  | conditional _ condition body none => .conditional condition.row (bodyOutline body) none
  | conditional _ condition body (some elseBody) =>
    .conditional condition.row (bodyOutline body) (some (bodyOutline elseBody))

def bodyOutline : List Stmt → List Outline
  | [] => []
  | stmt :: stmts => stmt.outline :: bodyOutline stmts

end

theorem bodyOutline_eq_map : ∀ body : List Stmt, bodyOutline body = body.map outline
  | [] => rfl
  | stmt :: stmts => by rw [bodyOutline, bodyOutline_eq_map stmts, List.map_cons]

end Stmt

/-! ## Tokens that stand elsewhere -/

/-- A map of tokens that leaves their kinds and texts as they are. -/
structure Token.Moves (f : Token → Token) : Prop where
  kind : ∀ token, (f token).kind = token.kind
  text : ∀ token, (f token).text = token.text

section map

variable {f : Token → Token} {ts : List Token}

theorem Token.Moves.kind_eq (hf : Token.Moves f) {token : Token} {kind : Kind}
    (h : token.kind = kind) : (f token).kind = kind :=
  (hf.kind token).trans h

theorem Operand.Derives.map (hf : Token.Moves f) {x : Operand} {token : Token}
    (h : x.Derives token) : x.Derives (f token) := by
  cases h with
  | number hn htext hv => exact .number (hf.kind_eq hn) (by rw [hf.text, htext]) hv
  | color hc => exact hf.text token ▸ .color (hf.kind_eq hc)
  | boolean hb => exact .boolean (hf.kind_eq hb)
  | name hn => exact hf.text token ▸ .name (hf.kind_eq hn)

theorem Row.OthersDerive.map (hf : Token.Moves f) {others : List (Operator × Operand)}
    (h : OthersDerive others ts) : OthersDerive others (ts.map f) := by
  induction h with
  | nil => exact .nil
  | cons ho hx _ ih => exact .cons (hf.kind_eq ho) (hx.map hf) ih

theorem Row.Derives.map (hf : Token.Moves f) {row : Row} (h : row.Derives ts) :
    row.Derives (ts.map f) := by
  cases h with
  | mk hx ho => exact .mk (hx.map hf) (ho.map hf)

theorem Selector.Derives.map (hf : Token.Moves f) {selector : Selector} {token : Token}
    (h : selector.Derives token) : selector.Derives (f token) :=
  ⟨hf.kind_eq h.kind_eq, (hf.text token).trans h.text_eq⟩

theorem Selector.OthersDerive.map (hf : Token.Moves f) {others : List Selector}
    (h : OthersDerive others ts) : OthersDerive others (ts.map f) := by
  induction h with
  | nil => exact .nil
  | cons hc hs _ ih => exact .cons (hf.kind_eq hc) (hs.map hf) ih

theorem Selector.ListDerives.map (hf : Token.Moves f) {selectors : List Selector}
    (h : ListDerives selectors ts) : ListDerives selectors (ts.map f) := by
  cases h with
  | cons hs ho => exact .cons (hs.map hf) (ho.map hf)

namespace Outline

mutual

/-- What is derived depends on the kinds and the texts of the tokens alone. -/
theorem Derives.map (hf : Token.Moves f) {o : Outline} {ts : List Token} :
    o.Derives ts → o.Derives (ts.map f)
  | @Derives.assignment name assign semicolon value ts hn ha hv hs => by
    have h := Derives.assignment (hf.kind_eq hn) (hf.kind_eq ha) (hv.map hf) (hf.kind_eq hs)
    rw [hf.text] at h
    simpa using h
  | @Derives.declaration property colon semicolon value ts hp hc hv hs => by
    have h := Derives.declaration (hf.kind_eq hp) (hf.kind_eq hc) (hv.map hf) (hf.kind_eq hs)
    rw [hf.text] at h
    simpa using h
  | .rule hs hb => by
    rw [List.map_append]
    exact .rule (hs.map hf) (BlockDerives.map hf hb)
  | .conditional hw ho hcond hc hb he => by
    have h := Derives.conditional (hf.kind_eq hw) (hf.kind_eq ho) (hcond.map hf) (hf.kind_eq hc)
      (BlockDerives.map hf hb) (ElseDerives.map hf he)
    simpa using h

theorem BlockDerives.map (hf : Token.Moves f) {body : List Outline} {ts : List Token} :
    BlockDerives body ts → BlockDerives body (ts.map f)
  | .mk ho hb hc => by
    have h := BlockDerives.mk (hf.kind_eq ho) (BodyDerives.map hf hb) (hf.kind_eq hc)
    simpa using h

theorem ElseDerives.map (hf : Token.Moves f) {body : Option (List Outline)} {ts : List Token} :
    ElseDerives body ts → ElseDerives body (ts.map f)
  | .none => .none
  | .some hw hb => .some (hf.kind_eq hw) (BlockDerives.map hf hb)

theorem BodyDerives.map (hf : Token.Moves f) {body : List Outline} {ts : List Token} :
    BodyDerives body ts → BodyDerives body (ts.map f)
  | .nil => .nil
  | .cons h ho => by
    rw [List.map_append]
    exact .cons (Derives.map hf h) (BodyDerives.map hf ho)

end

theorem SheetDerives.map (hf : Token.Moves f) {body : List Outline} (h : SheetDerives body ts) :
    SheetDerives body (ts.map f) := by
  induction h with
  | nil => exact .nil
  | cons h ho _ ih =>
    rw [List.map_append]
    exact .cons (h.map hf) ho ih

end Outline

end map

namespace Outline

variable {a b : List Outline} {ts us : List Token}

theorem BodyDerives.single {o : Outline} (h : o.Derives ts) : BodyDerives [o] ts := by
  have h := BodyDerives.cons h .nil
  rwa [List.append_nil] at h

theorem BodyDerives.append : ∀ {a : List Outline} {ts : List Token}, BodyDerives a ts →
    BodyDerives b us → BodyDerives (a ++ b) (ts ++ us)
  | _, _, .nil, hb => hb
  | _, _, .cons h ho, hb => by
    rw [List.append_assoc]
    exact .cons h (BodyDerives.append ho hb)

theorem SheetDerives.append (ha : SheetDerives a ts) (hb : SheetDerives b us) :
    SheetDerives (a ++ b) (ts ++ us) := by
  induction ha with
  | nil => exact hb
  | cons h ho _ ih =>
    rw [List.append_assoc]
    exact .cons h ho ih

/-- A body of statements that may stand outside of rules is a stylesheet. -/
theorem SheetDerives.of_body : ∀ {body : List Outline} {ts : List Token}, BodyDerives body ts →
    (∀ o ∈ body, o.IsOuter) → SheetDerives body ts
  | _, _, .nil, _ => .nil
  | _, _, .cons h hb, ho => by
    rw [List.forall_mem_cons] at ho
    exact .cons h ho.1 (SheetDerives.of_body hb ho.2)

end Outline

end StyleLang

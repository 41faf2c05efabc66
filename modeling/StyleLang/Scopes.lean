import StyleLang.Bindings

/-!
# Scopes

A stack of frames, one for each open block, the innermost first. A name is looked up from the
innermost frame outwards (`Scopes.lookup_define`, `Scopes.lookup_push`). Entering a block and
leaving it again changes nothing (`Scopes.pop_push`).

`push`, `pop` and `define` are for walks that open a block before they need it. For other callers
`pop?`, `define?` and `frame?` say what is wrong where no frame is open.
-/

namespace StyleLang

structure Scopes (α : Type) where
  frames : List (Bindings α)

/-- What cannot be done to a stack of frames. -/
inductive Misuse where
  | popEmpty
  | defineEmpty (name : String)
  | missingFrame (level depth : Nat)
deriving DecidableEq

def Misuse.message : Misuse → String
  | popEmpty => "Attempted to pop a scope from an empty scope stack"
  | defineEmpty name => "Attempted to define `" ++ name ++ "` with no open scope"
  | missingFrame level depth =>
    "Attempted to access frame " ++ level.repr ++ " of a scope stack with " ++ depth.repr
      ++ " frames"

namespace Scopes

variable {α : Type}

def empty : Scopes α := ⟨[]⟩

def depth (scopes : Scopes α) : Nat :=
  scopes.frames.length

def isEmpty (scopes : Scopes α) : Bool :=
  scopes.frames.isEmpty

/-- Enters a block. -/
def push (scopes : Scopes α) : Scopes α :=
  ⟨.empty :: scopes.frames⟩

/-- Leaves the innermost block. -/
def pop (scopes : Scopes α) : Scopes α :=
  ⟨scopes.frames.tail⟩

/-- Binds a name in the innermost frame. -/
def define (scopes : Scopes α) (name : String) (value : α) : Scopes α :=
  ⟨scopes.frames.modifyHead (·.insert name value)⟩

/-- The value of a name in the innermost frame that binds it. -/
def lookup (scopes : Scopes α) (name : String) : Option α :=
  scopes.frames.findSome? (·.find? name)

/-- The bindings of the innermost block, and the scopes outside it. -/
def pop? (scopes : Scopes α) : Except Misuse (Bindings α × Scopes α) :=
  match scopes.frames with
  | [] => .error .popEmpty
  | frame :: frames => .ok (frame, ⟨frames⟩)

def define? (scopes : Scopes α) (name : String) (value : α) : Except Misuse (Scopes α) :=
  if scopes.isEmpty then .error (.defineEmpty name) else .ok (scopes.define name value)

/-- The frame a number of levels out from the innermost. -/
def frame? (scopes : Scopes α) (level : Nat) : Except Misuse (Bindings α) :=
  match scopes.frames[level]? with
  | none => .error (.missingFrame level scopes.depth)
  | some frame => .ok frame

@[simp] theorem pop_push (scopes : Scopes α) : scopes.push.pop = scopes := rfl

@[simp] theorem pop_define (scopes : Scopes α) (name : String) (value : α) :
    (scopes.define name value).pop = scopes.pop := by
  cases scopes with
  | mk frames => cases frames <;> rfl

@[simp] theorem depth_push (scopes : Scopes α) : scopes.push.depth = scopes.depth + 1 := rfl

@[simp] theorem depth_define (scopes : Scopes α) (name : String) (value : α) :
    (scopes.define name value).depth = scopes.depth := by
  simp [depth, define]

@[simp] theorem lookup_push (scopes : Scopes α) (name : String) :
    scopes.push.lookup name = scopes.lookup name := rfl

theorem lookup_define {scopes : Scopes α} (h : scopes.depth ≠ 0) (name other : String)
    (value : α) :
    (scopes.define name value).lookup other =
      if other = name then some value else scopes.lookup other := by
  obtain ⟨_ | ⟨frame, frames⟩⟩ := scopes
  · exact absurd rfl h
  · by_cases ho : other = name <;>
      simp [lookup, define, List.findSome?_cons, Bindings.find?_insert, ho]

end Scopes

end StyleLang

import StyleLang.Scopes

/-!
# Stacks with a frame open

`Scopes.extend` is the stack with one more frame inside it. Every stack with a frame open is of
this form (`Scopes.eq_extend_of_depth_ne_zero`), and what is done to its innermost frame does not
touch the others.
-/

namespace StyleLang

namespace Scopes

variable {α : Type}

/-- The scopes with a further frame inside them. -/
def extend (outer : Scopes α) (frame : Bindings α) : Scopes α :=
  ⟨frame :: outer.frames⟩

@[simp] theorem pop_extend (outer : Scopes α) (frame : Bindings α) :
    (outer.extend frame).pop = outer := rfl

@[simp] theorem depth_extend (outer : Scopes α) (frame : Bindings α) :
    (outer.extend frame).depth = outer.depth + 1 := rfl

@[simp] theorem pop?_extend (outer : Scopes α) (frame : Bindings α) :
    (outer.extend frame).pop? = .ok (frame, outer) := rfl

theorem push_eq_extend (scopes : Scopes α) : scopes.push = scopes.extend .empty := rfl

theorem define_extend (outer : Scopes α) (frame : Bindings α) (name : String) (value : α) :
    (outer.extend frame).define name value = outer.extend (frame.insert name value) := rfl

theorem define?_extend (outer : Scopes α) (frame : Bindings α) (name : String) (value : α) :
    (outer.extend frame).define? name value = .ok (outer.extend (frame.insert name value)) := rfl

theorem eq_extend_of_depth_ne_zero {scopes : Scopes α} (h : scopes.depth ≠ 0) :
    ∃ (outer : Scopes α) (frame : Bindings α), scopes = outer.extend frame := by
  obtain ⟨_ | ⟨frame, frames⟩⟩ := scopes
  · exact absurd rfl h
  · exact ⟨⟨frames⟩, frame, rfl⟩

end Scopes

end StyleLang

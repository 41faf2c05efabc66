/-!
# Bindings of names

A finite map from names to values. Each name is bound at most once: binding it again replaces its
value (`Bindings.find?_insert`), and the size counts the names (`Bindings.size_insert`).
-/

namespace StyleLang

structure Bindings (α : Type) where
  entries : List (String × α)
  nodup_names : (entries.map Prod.fst).Nodup

namespace Bindings

variable {α : Type}

def empty : Bindings α := ⟨[], List.nodup_nil⟩

def size (bindings : Bindings α) : Nat :=
  bindings.entries.length

def isEmpty (bindings : Bindings α) : Bool :=
  bindings.entries.isEmpty

def find? (bindings : Bindings α) (name : String) : Option α :=
  bindings.entries.lookup name

def contains (bindings : Bindings α) (name : String) : Bool :=
  (bindings.find? name).isSome

theorem nodup_insert {entries : List (String × α)} (h : (entries.map Prod.fst).Nodup)
    (name : String) (value : α) :
    (((name, value) :: entries.filter (·.1 ≠ name)).map Prod.fst).Nodup := by
  rw [List.map_cons, List.nodup_cons]
  refine ⟨?_, h.sublist (List.Sublist.map _ List.filter_sublist)⟩
  simp

/-- Binds a name, in place of what it was bound to. -/
def insert (bindings : Bindings α) (name : String) (value : α) : Bindings α :=
  ⟨(name, value) :: bindings.entries.filter (·.1 ≠ name), nodup_insert bindings.nodup_names ..⟩

/-- The bindings of a list of pairs, where a later pair counts. -/
def ofList (pairs : List (String × α)) : Bindings α :=
  pairs.foldl (fun bindings (name, value) => bindings.insert name value) empty

/-- Whether two maps bind the same names to the same values. -/
def sameAs [DecidableEq α] (a b : Bindings α) : Bool :=
  a.size = b.size && a.entries.all fun (name, value) => b.find? name = some value

@[simp] theorem find?_empty (name : String) : (empty : Bindings α).find? name = none := rfl

theorem lookup_filter_ne {name other : String} (h : other ≠ name) :
    ∀ entries : List (String × α),
      (entries.filter (·.1 ≠ name)).lookup other = entries.lookup other
  | [] => rfl
  | (key, value) :: entries => by
    rw [List.filter_cons]
    split
    · rw [List.lookup_cons, List.lookup_cons, lookup_filter_ne h entries]
    · rename_i hk
      rw [lookup_filter_ne h entries, List.lookup_cons]
      have hk : key = name := by simpa using hk
      rw [hk, beq_false_of_ne h]

theorem find?_insert (bindings : Bindings α) (name other : String) (value : α) :
    (bindings.insert name value).find? other =
      if other = name then some value else bindings.find? other := by
  by_cases h : other = name
  · simp [find?, insert, h]
  · rw [if_neg h, find?, insert, List.lookup_cons, lookup_filter_ne h, beq_false_of_ne h, find?]

theorem find?_eq_none_iff {bindings : Bindings α} {name : String} :
    bindings.find? name = none ↔ name ∉ bindings.entries.map Prod.fst := by
  simp only [find?, List.lookup_eq_none_iff, List.mem_map, not_exists, not_and, bne_iff_ne]
  grind

theorem length_filter_ne (name : String) :
    ∀ entries : List (String × α), (entries.map Prod.fst).Nodup →
      (entries.filter (·.1 ≠ name)).length + (if name ∈ entries.map Prod.fst then 1 else 0)
        = entries.length
  | [], _ => rfl
  | (key, value) :: entries, h => by
    simp only [List.map_cons, List.nodup_cons] at h
    have ih := length_filter_ne name entries h.2
    by_cases hk : key = name
    · subst hk
      rw [if_neg h.1] at ih
      simpa [List.filter_cons] using ih
    · have hn : name ∈ ((key, value) :: entries).map Prod.fst ↔ name ∈ entries.map Prod.fst := by
        simp [Ne.symm hk]
      simp only [hn, List.filter_cons, ne_eq, hk, not_false_eq_true, decide_true, if_true,
        List.length_cons, ← ih]
      omega

theorem size_insert (bindings : Bindings α) (name : String) (value : α) :
    (bindings.insert name value).size =
      if bindings.contains name then bindings.size else bindings.size + 1 := by
  have h := length_filter_ne name bindings.entries bindings.nodup_names
  by_cases hc : bindings.find? name = none
  · rw [if_neg (find?_eq_none_iff.1 hc)] at h
    simpa [contains, hc, size, insert] using h
  · rw [if_pos (Decidable.of_not_not fun hn => hc (find?_eq_none_iff.2 hn))] at h
    simpa [contains, Option.isSome_iff_ne_none.2 hc, size, insert] using h

end Bindings

end StyleLang

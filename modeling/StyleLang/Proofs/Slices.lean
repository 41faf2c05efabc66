import StyleLang.Proofs.Layout
import StyleLang.Proofs.Spelling

/-!
# Pieces of a source by themselves

What stands from the first of some tokens of a source to the last of them is cut up into these
tokens (`Tiled.exists_slice`): with less behind it a longest piece stays longest, and what is
skipped between two tokens ends where it did. By itself it is scanned as the same tokens nearer to
the start (`Token.scan_slice`).
-/

namespace StyleLang

theorem Munched.of_append {piece text more : List Char} (h : Munched piece (text ++ more)) :
    Munched piece text where
  shape := h.shape
  longest shape ht other hm hp := by
    refine h.longest shape ht other hm (hp.trans ?_)
    rw [← List.append_assoc]
    exact List.prefix_append _ _

theorem Skipped.of_append {piece text more : List Char} (h : Skipped piece (text ++ more)) :
    Skipped piece text := by
  have hhead : ∀ c ∈ text.head?, c ∈ (text ++ more).head? := by
    intro c hc
    rw [List.head?_append, Option.mem_def.1 hc]
    rfl
  cases h with
  | blank hne hb hr => exact .blank hne hb fun c hc => hr c (hhead c hc)
  | line hn hr => exact .line hn fun c hc => hr c (hhead c hc)
  | block hn => exact .block hn

namespace Tiled

variable {file : String} {before text seen rest : List Char} {us vs ws : List Token}

/-- Behind some of the tokens the next one starts a text of its own. -/
theorem exists_drop {v : Token} (h : Tiled file before text (us ++ v :: vs) seen rest) :
    ∃ gap text', text = gap ++ text' ∧ v.span.start = .ofOffset file (byteCount (before ++ gap))
      ∧ Tiled file (before ++ gap) text' (v :: vs) seen rest := by
  generalize he : us ++ v :: vs = tokens at h
  induction h generalizing us with
  | stop => exact absurd he (by simp)
  | @skip _ piece _ _ _ _ _ _ ih =>
    obtain ⟨gap, text', rfl, hv, ht⟩ := ih he
    rw [List.append_assoc] at hv ht
    exact ⟨piece ++ gap, text', (List.append_assoc ..).symm, hv, ht⟩
  | @token before piece _ _ _ _ _ hm hk ht ih =>
    cases us with
    | nil =>
      cases he
      refine ⟨[], _, rfl, ?_, ?_⟩ <;> rw [List.append_nil]
      · rfl
      · exact .token hm hk ht
    | cons u us =>
      obtain ⟨-, he⟩ := List.cons.inj he
      obtain ⟨gap, text', rfl, hv, ht⟩ := ih he
      rw [List.append_assoc] at hv ht
      exact ⟨piece ++ gap, text', (List.append_assoc ..).symm, hv, ht⟩

/-- Up to the last of some tokens a text is made of these tokens. -/
theorem exists_take (h : Tiled file before text (vs ++ ws) seen rest) (hne : vs ≠ []) :
    ∃ piece text', text = piece ++ text' ∧ Tiled file before piece vs (before ++ piece) []
      ∧ (Span.cover vs).stop = .ofOffset file (byteCount (before ++ piece)) := by
  generalize he : vs ++ ws = tokens at h
  induction h generalizing vs with
  | stop => exact absurd (List.append_eq_nil_iff.1 he).1 hne
  | @skip before piece _ _ _ _ hs _ ih =>
    obtain ⟨piece', text', rfl, ht, hstop⟩ := ih hne he
    rw [List.append_assoc _ piece piece'] at ht hstop
    exact ⟨piece ++ piece', text', (List.append_assoc ..).symm, .skip hs.of_append ht, hstop⟩
  | @token before piece text _ _ _ kind hm hk _ ih =>
    obtain ⟨v, vs, rfl⟩ := List.exists_cons_of_ne_nil hne
    obtain ⟨rfl, htail⟩ := List.cons.inj he
    by_cases hnil : vs = []
    · subst hnil
      have hpiece : Munched piece [] := Munched.of_append (show Munched piece ([] ++ text) from hm)
      refine ⟨piece, text, rfl, ?_, ?_⟩
      · have h : Tiled file before (piece ++ []) _ (before ++ piece) [] :=
          .token hpiece hk .stop
        rwa [List.append_nil] at h
      · rw [byteCount_append]
        rfl
    · obtain ⟨piece', text', rfl, ht, hstop⟩ := ih hnil htail
      rw [List.append_assoc _ piece piece'] at ht hstop
      refine ⟨piece ++ piece', text', (List.append_assoc ..).symm, .token hm.of_append hk ht, ?_⟩
      rw [← hstop]
      rw [← List.singleton_append, Span.stop_cover_append hnil]

/-- What stands from the first of some tokens to the last of them is made of these. -/
theorem exists_slice (h : Tiled file before text (us ++ vs ++ ws) seen rest) (hne : vs ≠ []) :
    ∃ gap piece text', text = gap ++ piece ++ text'
      ∧ Tiled file (before ++ gap) piece vs (before ++ gap ++ piece) []
      ∧ Span.cover vs = .ofOffset file (byteCount (before ++ gap)) (byteCount piece) := by
  obtain ⟨v, vs, rfl⟩ := List.exists_cons_of_ne_nil hne
  rw [List.append_assoc] at h
  obtain ⟨gap, text', rfl, hstart, h⟩ := exists_drop h
  obtain ⟨piece, text', rfl, ht, hstop⟩ := exists_take h hne
  refine ⟨gap, piece, text', (List.append_assoc ..).symm, ht, ?_⟩
  rw [byteCount_append _ piece] at hstop
  rw [Span.ofOffset, ← hstart, ← hstop]
  rfl

/-- A text is cut up alike where less stands before it. -/
theorem exists_shift {base : List Char} {tokens : List Token}
    (h : Tiled file (base ++ before) text tokens seen rest) :
    ∃ tokens' seen', tokens = tokens'.map (Token.shift (byteCount base))
      ∧ Tiled file before text tokens' seen' rest := by
  generalize he : base ++ before = place at h
  induction h generalizing before with
  | stop => exact ⟨[], _, rfl, .stop⟩
  | @skip _ piece _ _ _ _ hs _ ih =>
    subst he
    obtain ⟨tokens', seen', rfl, ht⟩ := ih (List.append_assoc ..).symm
    exact ⟨tokens', seen', rfl, .skip hs ht⟩
  | @token _ piece _ _ _ _ kind hm hk _ ih =>
    subst he
    obtain ⟨tokens', seen', rfl, ht⟩ := ih (List.append_assoc ..).symm
    refine ⟨_ :: tokens', seen', ?_, .token hm hk ht⟩
    rw [byteCount_append, Nat.add_comm, Token.ofPiece_add]
    rfl

end Tiled

namespace Token

theorem scanFrom_of_tiled {file : String} {before text seen rest : List Char}
    {tokens : List Token} (h : Tiled file before text tokens seen rest) (hr : rest = []) :
    scanFrom file (byteCount before) text
      = .ok (tokens ++ [.ending (.ofOffset file (byteCount seen))]) := by
  induction h with
  | stop =>
    subst hr
    exact scanFrom_nil _ _
  | skip hs _ ih =>
    rw [scanFrom_skipped hs, ← byteCount_append, ih hr]
  | token hm hk _ ih =>
    rw [scanFrom_munched hm hk, ← byteCount_append, ih hr]
    rfl

/-- By itself, what stands from the first of some tokens to the last of them is scanned as the same
tokens nearer to the start. -/
theorem scan_slice {source file : String} {seen rest : List Char} {tokens us : List Token}
    (h : Tiled file [] source.toList tokens seen rest) (hus : us <:+: tokens) (hne : us ≠ []) :
    ∃ before piece after, source = before ++ piece ++ after
      ∧ Span.cover us = .ofOffset file before.utf8ByteSize piece.utf8ByteSize
      ∧ ∃ us' ending, scan piece file = .ok (us' ++ [ending])
        ∧ us = us'.map (shift before.utf8ByteSize) := by
  obtain ⟨xs, ys, rfl⟩ := hus
  obtain ⟨before, piece, after, hsource, ht, hcover⟩ := h.exists_slice hne
  rw [List.nil_append] at ht hcover
  rw [← List.append_nil before] at ht
  obtain ⟨us', seen', hshift, halone⟩ := ht.exists_shift
  have hscan := scanFrom_of_tiled halone rfl
  rw [← String.toList_ofList (l := piece)] at hscan
  refine ⟨String.ofList before, String.ofList piece, String.ofList after, ?_, ?_, us', _, hscan, ?_⟩
  · rw [← String.ofList_append, ← String.ofList_append, ← hsource, String.ofList_toList]
  · rw [hcover, utf8ByteSize_ofList, utf8ByteSize_ofList]
  · rw [hshift, utf8ByteSize_ofList]

end Token

end StyleLang

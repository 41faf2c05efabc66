import StyleLang.Proofs.Pattern
import StyleLang.Token.Scan

/-!
# A source as a row of lexemes

`Lexeme.first?` goes by the order of the shapes, but no token is cut short by it: what it takes for
a token is the longest text in front that fits any shape of tokens (`Lexeme.munched_of_first?`),
and it takes nothing only where no shape fits (`Lexeme.not_matches_of_first?_eq_none`).

So scanning cuts a source into pieces that make it up again (`Tiled`), and either reaches its end
or a character at which no shape fits (`Token.scanFrom_tiled`, `Token.scan_tiled`).
-/

namespace StyleLang

/-- The piece in front is a run of blanks, a comment up to the end of its line, or a comment up to
the first `*/`. -/
inductive Skipped : List Char → List Char → Prop
  | blank {piece rest : List Char} : piece ≠ [] → (∀ c ∈ piece, isBlank c) →
      (∀ c ∈ rest.head?, isBlank c = false) → Skipped piece rest
  | line {body rest : List Char} : '\n' ∉ body → (∀ c ∈ rest.head?, c = '\n') →
      Skipped ('/' :: '/' :: body) rest
  | block {body rest : List Char} : ¬ ['*', '/'] <:+: body ++ ['*'] →
      Skipped ('/' :: '*' :: (body ++ ['*', '/'])) rest

/-- The piece in front is of a shape of tokens, and no longer one there is. -/
structure Munched (piece rest : List Char) : Prop where
  shape : ∃ shape : Shape, ¬ shape.IsTrivia ∧ shape.Matches piece
  longest : ∀ shape : Shape, ¬ shape.IsTrivia → ∀ other, shape.Matches other →
    other <+: piece ++ rest → other.length ≤ piece.length

/-- What stands behind `before` is made of pieces, of which `tokens` are made, up to `rest`, where
`seen` has been passed. -/
inductive Tiled (file : String) :
    List Char → List Char → List Token → List Char → List Char → Prop
  | stop {before rest : List Char} : Tiled file before rest [] before rest
  | skip {before piece text rest seen : List Char} {tokens : List Token} :
      Skipped piece text → Tiled file (before ++ piece) text tokens seen rest →
      Tiled file before (piece ++ text) tokens seen rest
  | token {before piece text rest seen : List Char} {tokens : List Token} {kind : Kind} :
      Munched piece text → kind.Fits piece →
      Tiled file (before ++ piece) text tokens seen rest →
      Tiled file before (piece ++ text)
        (.ofPiece file (byteCount before) kind piece :: tokens) seen rest

namespace Shape

variable {cs s r : List Char}

theorem skipped_of_split? {shape : Shape} (h : shape.split? cs = some (s, r))
    (ht : shape.IsTrivia) : Skipped s r := by
  unfold split? at h
  split at h
  · exact .blank (Split.run?_ne_nil h) (Split.of_mem_run? h) (Split.head?_of_run? h)
  · rename_i cs
    cases h
    refine .line (fun hn => ?_) (fun c hc => ?_)
    · simpa using List.all_eq_true.1 List.all_takeWhile _ hn
    · have := List.head?_dropWhile_not (fun c => decide (c ≠ '\n')) cs
      rw [Option.mem_def.1 hc] at this
      simpa using this
  · obtain ⟨⟨s', r'⟩, h, he⟩ := Option.map_eq_some_iff.1 h
    cases he
    obtain ⟨t, rfl, ht⟩ := Split.upToClosing?_eq_some h
    exact .block ht
  all_goals first | exact False.elim ht | cases h

theorem split?_number_eq_some {measure : Measure}
    (h : (number measure).split? cs = some (s, r)) :
    s = cs.takeWhile Char.isDigit ++ measure.suffix.toList
      ∧ cs.dropWhile Char.isDigit = measure.suffix.toList ++ r := by
  simp only [split?] at h
  obtain ⟨⟨digits, r'⟩, hr, h⟩ := Option.bind_eq_some_iff.1 h
  obtain ⟨⟨s', r''⟩, hst, he⟩ := Option.map_eq_some_iff.1 h
  cases he
  simp only [Split.run?] at hr
  split at hr <;> cases hr
  obtain ⟨rfl, hd⟩ := Split.strip?_eq_some_iff.1 hst
  exact ⟨rfl, hd⟩

/-- Where a shape fits as well as one that comes before it, the one before takes no less. -/
theorem length_le_of_split?_number {m n : Measure} {s' r' : List Char}
    (h : (number m).split? cs = some (s, r)) (h' : (number n).split? cs = some (s', r'))
    (hmn : m = .scalar ∨ m = n ∨ n ≠ .scalar) : s.length ≤ s'.length := by
  obtain ⟨rfl, hr⟩ := split?_number_eq_some h
  obtain ⟨rfl, hr'⟩ := split?_number_eq_some h'
  rw [hr] at hr'
  cases m <;> cases n <;> simp [Measure.suffix] at hmn hr' ⊢

/-- Two shapes of tokens that start alike are both shapes of numbers, or those of `:=` and `:`. -/
theorem eq_or_of_family_eq : ∀ a ∈ all, ∀ b ∈ all, a.family = b.family →
    a = b ∨ all.idxOf a < all.idxOf b ∨ a = .blockComment
      ∨ (∃ m ∈ Measure.all, ∃ n ∈ Measure.all, (m = .scalar ∨ m = n ∨ n ≠ .scalar)
        ∧ a = .number m ∧ b = .number n)
      ∨ a = .mark .colon ∧ b = .mark .assign := by
  decide +kernel

end Shape

namespace Lexeme

variable {cs : List Char} {lexeme : Lexeme}

/-- Nothing is taken by a shape that comes before the one of the lexeme. -/
theorem split?_eq_none_of_first? (h : first? cs = some lexeme) {shape : Shape}
    (hs : Shape.all.idxOf shape < Shape.all.idxOf lexeme.shape) : shape.split? cs = none := by
  obtain ⟨l₁, a, l₂, hl, ha, hn⟩ := List.findSome?_eq_some_iff.1 h
  obtain ⟨⟨s, r⟩, -, rfl⟩ := Option.map_eq_some_iff.1 ha
  have ha' : a ∉ l₁ := fun hm => by rw [hn a hm] at ha; cases ha
  have hs : Shape.all.idxOf shape < Shape.all.idxOf a := hs
  rw [hl, List.idxOf_append, List.idxOf_append, if_neg ha', List.idxOf_cons_self] at hs
  by_cases hm : shape ∈ l₁
  · exact Option.map_eq_none_iff.1 (hn shape hm)
  · rw [if_neg hm] at hs
    omega

theorem munched_of_first? (h : first? cs = some lexeme) (ht : ¬ lexeme.shape.IsTrivia) :
    Munched lexeme.text lexeme.rest := by
  have hsp := split?_of_first? h
  have hm := Shape.matches_of_split? hsp
  refine ⟨⟨lexeme.shape, ht, hm⟩, fun shape hst other hmo hp => ?_⟩
  rw [Shape.append_of_split? hsp] at hp
  obtain ⟨t, rfl⟩ := hp
  obtain ⟨s, r, hs, hlen⟩ := Shape.split?_of_matches hmo t
  have hle : other.length ≤ s.length := hlen fun hb => hst (hb ▸ trivial)
  have hf : shape.family = lexeme.shape.family := by
    obtain ⟨c, u, rfl⟩ := List.exists_cons_of_ne_nil hmo.ne_nil
    obtain ⟨d, v, hv⟩ := List.exists_cons_of_ne_nil hm.ne_nil
    have happ := Shape.append_of_split? hsp
    rw [hv] at hm happ
    obtain ⟨rfl, -⟩ := List.cons.inj happ
    exact hmo.family_eq_of_head hm
  rcases Shape.eq_or_of_family_eq shape (Shape.mem_all _) lexeme.shape (Shape.mem_all _) hf with
    rfl | hi | rfl | ⟨m, -, n, -, hmn, rfl, hn⟩ | ⟨rfl, ha⟩
  · cases hs.symm.trans hsp
    exact hle
  · rw [split?_eq_none_of_first? h hi] at hs
    cases hs
  · exact absurd trivial hst
  · rw [hn] at hsp
    exact Nat.le_trans hle (Shape.length_le_of_split?_number hs hsp hmn)
  · rw [ha] at hm
    rw [hmo, hm]
    decide

theorem not_matches_of_first?_eq_none (h : first? cs = none) (shape : Shape) {s : List Char}
    (hs : s <+: cs) : ¬ shape.Matches s := by
  rintro hm
  obtain ⟨t, rfl⟩ := hs
  obtain ⟨s', r, hs, -⟩ := Shape.split?_of_matches hm t
  have := List.findSome?_eq_none_iff.1 h shape (Shape.mem_all shape)
  simp [hs] at this

end Lexeme

namespace Tiled

variable {file : String} {before text seen rest : List Char} {tokens : List Token}

theorem append_eq (h : Tiled file before text tokens seen rest) :
    before ++ text = seen ++ rest := by
  induction h with
  | stop => rfl
  | skip _ _ ih => rw [← ih, List.append_assoc]
  | token _ _ _ ih => rw [← ih, List.append_assoc]

/-- Each token has its text and its place from where it occurs. -/
theorem exists_of_mem (h : Tiled file before text tokens seen rest) {token : Token}
    (ht : token ∈ tokens) : ∃ b piece r, before ++ text = b ++ piece ++ r
      ∧ token.kind.Fits piece ∧ token = .ofPiece file (byteCount b) token.kind piece := by
  induction h with
  | stop => cases ht
  | skip _ _ ih =>
    obtain ⟨b, piece, r, hb, h⟩ := ih ht
    exact ⟨b, piece, r, by rw [← hb, List.append_assoc], h⟩
  | @token before piece text _ _ _ _ _ hf _ ih =>
    rcases List.mem_cons.1 ht with rfl | ht
    · exact ⟨before, piece, text, by rw [List.append_assoc], hf, rfl⟩
    · obtain ⟨b, piece, r, hb, h⟩ := ih ht
      exact ⟨b, piece, r, by rw [← hb, List.append_assoc], h⟩

end Tiled

namespace Token

/-- The lexeme in front is skipped or makes the next token. -/
theorem tiled_of_first? {file : String} {before text seen rest : List Char} {tokens : List Token}
    {lexeme : Lexeme} (h : Lexeme.first? text = some lexeme)
    (ht : Tiled file (before ++ lexeme.text) lexeme.rest tokens seen rest) :
    Tiled file before text ((lexeme.token? file (byteCount before)).toList ++ tokens)
      seen rest := by
  have hs := Lexeme.split?_of_first? h
  rw [← Shape.append_of_split? hs]
  unfold Lexeme.token?
  rcases hk : lexeme.shape.kind? lexeme.text with _ | kind
  · have hi := Shape.kind?_eq_none_iff.1 hk
    exact .skip (Shape.skipped_of_split? hs hi) ht
  · have hi : ¬ lexeme.shape.IsTrivia := fun hi => by
      rw [Shape.kind?_eq_none_iff.2 hi] at hk
      cases hk
    have hf := Shape.fits_of_kind? (Shape.matches_of_split? hs) hk
    exact .token (Lexeme.munched_of_first? h hi) hf ht

/-- Scanning cuts up what stands in front of the end or of a character that starts no lexeme. -/
theorem scanFrom_tiled (file : String) (before text : List Char) :
    ∃ tokens seen rest, Tiled file before text tokens seen rest
      ∧ (rest = [] ∧ scanFrom file (byteCount before) text
            = .ok (tokens ++ [.ending (.ofOffset file (byteCount seen))])
        ∨ ∃ c cs, rest = c :: cs ∧ Lexeme.first? rest = none
          ∧ scanFrom file (byteCount before) text
            = .error ⟨.unrecognised (String.ofList [c]), .ofOffset file (byteCount seen)⟩) := by
  induction hn : text.length using Nat.strongRecOn generalizing before text with
  | _ n ih =>
    subst hn
    rcases hf : Lexeme.first? text with _ | lexeme
    · refine ⟨[], before, text, .stop, ?_⟩
      cases text with
      | nil => exact .inl ⟨rfl, scanFrom_nil _ _⟩
      | cons c cs => exact .inr ⟨c, cs, rfl, hf, scanFrom_of_first?_eq_none hf⟩
    · obtain ⟨tokens, seen, rest, ht, h⟩ :=
        ih _ (Lexeme.length_rest_lt hf) (before ++ lexeme.text) lexeme.rest rfl
      refine ⟨_, seen, rest, tiled_of_first? hf ht, ?_⟩
      rw [scanFrom_of_first? hf, ← byteCount_append]
      rcases h with ⟨hr, h⟩ | ⟨c, cs, hr, hn, h⟩
      · refine .inl ⟨hr, ?_⟩
        rw [h, Except.map, List.append_assoc]
      · refine .inr ⟨c, cs, hr, hn, ?_⟩
        rw [h, Except.map]

/-- A source is cut up from its start to its end, or to the first place at which no shape fits.
Every token stands where its span says, and its whole text tells whether it is a reserved word or
a color. -/
theorem scan_tiled (source file : String) :
    (∃ tokens, Tiled file [] source.toList tokens source.toList []
      ∧ (∀ token ∈ tokens,
          (∃ before after, source = before ++ token.text ++ after
            ∧ token.span = .ofOffset file before.utf8ByteSize token.text.utf8ByteSize)
          ∧ ((∃ word, token.kind = .word word) ↔ IsReserved token.text.toList)
          ∧ (token.kind = .color ↔ Shape.IsColor token.text.toList))
      ∧ scan source file = .ok (tokens ++ [.ending (.ofOffset file source.utf8ByteSize)]))
    ∨ ∃ tokens seen c rest, Tiled file [] source.toList tokens seen (c :: rest)
      ∧ source.toList = seen ++ c :: rest
      ∧ (∀ (shape : Shape) (piece : List Char), piece <+: c :: rest → ¬ shape.Matches piece)
      ∧ scan source file
        = .error ⟨.unrecognised (String.ofList [c]), .ofOffset file (byteCount seen)⟩ := by
  obtain ⟨tokens, seen, rest, ht, h⟩ := scanFrom_tiled file [] source.toList
  have hsource : source.toList = seen ++ rest := ht.append_eq
  rcases h with ⟨rfl, h⟩ | ⟨c, cs, rfl, hn, h⟩
  · obtain rfl : seen = source.toList := by rw [hsource, List.append_nil]
    refine .inl ⟨tokens, ht, fun token hm => ?_, ?_⟩
    · obtain ⟨b, piece, r, hb, hfits, htoken⟩ := ht.exists_of_mem hm
      have htext : token.text = String.ofList piece := by rw [htoken]; rfl
      rw [htext, String.toList_ofList]
      refine ⟨⟨String.ofList b, String.ofList r, ?_, ?_⟩, hfits.isWord_iff, hfits.eq_color_iff⟩
      · rw [← String.ofList_append, ← String.ofList_append, ← hb, List.nil_append,
          String.ofList_toList]
      · rw [← byteCount_toList, ← byteCount_toList, String.toList_ofList, String.toList_ofList,
          htoken]
        rfl
    · rw [← byteCount_toList]
      exact h
  · exact .inr ⟨tokens, seen, c, cs, ht, hsource,
      fun shape piece hp => Lexeme.not_matches_of_first?_eq_none hn shape hp, h⟩

end Token

end StyleLang

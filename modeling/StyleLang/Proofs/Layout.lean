import StyleLang.Proofs.Tiling

/-!
# Scanning piece by piece

A text that is known to be made of pieces is scanned as these: blanks and comments are passed
(`Token.scanFrom_blank_cons`, `Token.scanFrom_skipped`), and a longest piece of a kind makes a token
of that kind (`Token.scanFrom_munched`), as a text makes tokens of one kind only
(`Kind.Fits.unique`). A piece ends before a character that cannot stand inside a token
(`Munched.append_stop`).

What stands further on in a file is scanned as the same tokens further on (`Token.scanFrom_add`).
-/

namespace StyleLang

/-! ## Kinds of texts -/

/-- The characters that may stand in a token behind its first one. -/
def Shape.isInner (c : Char) : Bool :=
  c.isAlphanum || c = '-' || c = '_' || c = '%' || c = '='

namespace Shape

variable {s : List Char}

theorem isInner_of_isAlphanum {c : Char} (h : c.isAlphanum) : isInner c := by
  simp [isInner, h]

theorem isInner_of_isDigit {c : Char} (h : c.isDigit) : isInner c := by
  refine isInner_of_isAlphanum ?_
  delta Char.isAlphanum
  simp [h]

theorem isInner_of_isIdChar {c : Char} (h : isIdChar c) : isInner c := by
  simp only [isIdChar, Bool.or_eq_true] at h
  rcases h with h | h <;> simp [isInner, h]

theorem isInner_of_isLowerChar {c : Char} (h : isLowerChar c) : isInner c := by
  simp only [isLowerChar, Bool.or_eq_true] at h
  rcases h with (h | h) | h
  · refine isInner_of_isAlphanum ?_
    delta Char.isAlphanum Char.isAlpha
    simp [h]
  · exact isInner_of_isDigit h
  · simp [isInner, h]

theorem isInner_of_isCapitalChar {c : Char} (h : isCapitalChar c) : isInner c := by
  simp only [isCapitalChar, Bool.or_eq_true] at h
  rcases h with h | h <;> simp [isInner, h]

theorem isInner_of_mem_suffix (measure : Measure) : ∀ c ∈ measure.suffix.toList, isInner c := by
  have h : measure.suffix.toList.all isInner := by cases measure <;> decide
  exact List.all_eq_true.1 h

theorem isInner_of_mem_tail_mark (m : Mark) : ∀ c ∈ m.text.toList.tail, isInner c := by
  have h : ∀ m ∈ Mark.all, m.text.toList.tail.all isInner := by decide
  exact List.all_eq_true.1 (h m (Mark.mem_all m))

theorem Matches.isInner_of_mem_tail {shape : Shape} (ht : ¬ shape.IsTrivia)
    (h : shape.Matches s) : ∀ c ∈ s.tail, isInner c := by
  cases shape with
  | blank | lineComment | blockComment => exact absurd trivial ht
  | number measure =>
    obtain ⟨_ | ⟨d, digits⟩, hd, hc, rfl⟩ := h
    · exact absurd rfl hd
    · intro c hm
      rcases List.mem_append.1 hm with hm | hm
      · exact isInner_of_isDigit (hc c (List.mem_cons_of_mem _ hm))
      · exact isInner_of_mem_suffix measure c hm
  | hash =>
    obtain ⟨t, -, hc, rfl⟩ := h
    exact fun c hm => isInner_of_isIdChar (hc c hm)
  | dot =>
    obtain ⟨t, -, hc, rfl⟩ := h
    exact fun c hm => isInner_of_isLowerChar (hc c hm)
  | lower =>
    obtain ⟨d, t, -, hc, rfl⟩ := h
    exact fun c hm => isInner_of_isLowerChar (hc c hm)
  | capital =>
    obtain ⟨d, t, -, hc, rfl⟩ := h
    exact fun c hm => isInner_of_isCapitalChar (hc c hm)
  | mark m =>
    cases h
    exact isInner_of_mem_tail_mark m

theorem isTrivia_iff_of_family_eq {a b : Shape} (h : a.family = b.family) :
    a.IsTrivia ↔ b.IsTrivia := by
  cases a <;> cases b <;> simp_all [family, IsTrivia] <;> rename_i m <;> cases m <;> simp at h

end Shape

theorem Measure.eq_of_append_suffix {digits digits' : List Char} {m n : Measure}
    (hc : ∀ c ∈ digits, c.isDigit) (hc' : ∀ c ∈ digits', c.isDigit)
    (h : digits ++ m.suffix.toList = digits' ++ n.suffix.toList) : m = n := by
  have hdrop (measure : Measure) : measure.suffix.toList.dropWhile Char.isDigit
      = measure.suffix.toList := by cases measure <;> rfl
  have hs := congrArg (List.dropWhile Char.isDigit) h
  rw [List.dropWhile_append_of_pos hc, List.dropWhile_append_of_pos hc', hdrop, hdrop] at hs
  cases m <;> cases n <;> first | rfl | exact absurd hs (by decide)

namespace Kind

variable {kind kind' : Kind} {s : List Char}

/-- Kinds of texts that may start alike. -/
theorem eq_or_of_family_eq : ∀ k ∈ all, ∀ k' ∈ all, ∀ a ∈ k.shapes, ∀ b ∈ k'.shapes,
    a.family = b.family → k = k'
      ∨ (∃ m ∈ Measure.all, ∃ n ∈ Measure.all, k = .number m ∧ k' = .number n)
      ∨ (∃ m ∈ Mark.all, ∃ n ∈ Mark.all, k = .mark m ∧ k' = .mark n)
      ∨ (k = .color ∨ k' = .color)
      ∨ ∃ w ∈ Word.all, k = .word w ∨ k' = .word w := by
  decide +kernel

theorem Fits.eq_word {w : Word} (h : (word w).Fits s) (h' : kind.Fits s) : kind = word w := by
  obtain ⟨w', rfl⟩ := h'.isWord_iff.2 ⟨w, h⟩
  have hs : s = w.text.toList := h
  have hs' : s = w'.text.toList := h'
  have ht : w.text = w'.text := String.toList_inj.1 (hs.symm.trans hs')
  rw [← Word.ofText?_eq_some_iff, Word.ofText?_eq_some_iff.2 rfl] at ht
  rw [Option.some.inj ht]

/-- A text makes tokens of one kind. -/
theorem Fits.unique (h : kind.Fits s) (h' : kind'.Fits s) : kind = kind' := by
  obtain ⟨a, ha, hma⟩ := h.exists_shape
  obtain ⟨b, hb, hmb⟩ := h'.exists_shape
  rcases eq_or_of_family_eq kind (mem_all _) kind' (mem_all _) a ha b hb (hma.family_eq hmb) with
    he | ⟨m, -, n, -, rfl, rfl⟩ | ⟨m, -, n, -, rfl, rfl⟩ | (rfl | rfl) | ⟨w, -, rfl | rfl⟩
  · exact he
  · obtain ⟨digits, -, hc, hs⟩ := h
    obtain ⟨digits', -, hc', hs'⟩ := h'
    rw [Measure.eq_of_append_suffix hc hc' (hs.symm.trans hs')]
  · have hs : s = m.text.toList := h
    have hs' : s = n.text.toList := h'
    have hinj : ∀ a ∈ Mark.all, ∀ b ∈ Mark.all, a.text.toList = b.text.toList → a = b := by
      decide +kernel
    rw [hinj m (Mark.mem_all _) n (Mark.mem_all _) (hs.symm.trans hs')]
  · exact (h'.eq_color_iff.2 h.2).symm
  · exact h.eq_color_iff.2 h'.2
  · exact (h.eq_word h').symm
  · exact h'.eq_word h

/-- A text of a kind is of a shape of tokens. -/
theorem Fits.exists_shape_of_token (h : kind.Fits s) :
    ∃ shape : Shape, ¬ shape.IsTrivia ∧ shape.Matches s := by
  have ht : ∀ k ∈ all, ∀ a ∈ k.shapes, a ∉ [Shape.blank, .lineComment, .blockComment] := by
    decide +kernel
  obtain ⟨a, ha, hm⟩ := h.exists_shape
  have hn := ht kind (mem_all _) a ha
  exact ⟨a, fun hi => hn (by cases a <;> first | exact hi.elim | decide), hm⟩

end Kind

/-! ## Longest pieces -/

namespace Munched

variable {piece rest : List Char} {kind : Kind}

/-- A piece that is the whole text is its longest. -/
theorem of_fits (h : kind.Fits piece) : Munched piece [] where
  shape := h.exists_shape_of_token
  longest _ _ other _ hp := by
    rw [List.append_nil] at hp
    exact hp.length_le

/-- No piece reaches beyond a character that cannot stand inside a token. -/
theorem append_stop (h : Munched piece rest) {c : Char} (hc : Shape.isInner c = false)
    (after : List Char) : Munched piece (rest ++ c :: after) where
  shape := h.shape
  longest shape ht other hm hp := by
    rw [← List.append_assoc] at hp
    rcases List.prefix_or_prefix_of_prefix hp (List.prefix_append (piece ++ rest) (c :: after)) with
      hp' | ⟨more, rfl⟩
    · exact h.longest shape ht other hm hp'
    · rcases more with _ | ⟨d, more⟩
      · rw [List.append_nil] at hm ⊢
        exact h.longest shape ht _ hm (List.prefix_refl _)
      · -- A longer one would go on with the character that cannot stand inside.
        obtain ⟨rfl, -⟩ := List.cons_prefix_cons.1 (List.prefix_append_right_inj _ |>.1 hp)
        obtain ⟨e, piece', rfl⟩ := List.exists_cons_of_ne_nil (show piece ≠ [] by
          obtain ⟨shape', -, hm'⟩ := h.shape
          exact hm'.ne_nil)
        have hin := hm.isInner_of_mem_tail ht d (by simp)
        rw [hc] at hin
        cases hin

end Munched

/-- What is taken off the front of a text is its longest piece, with the kind that its text has. -/
theorem Lexeme.first?_of_munched {piece rest : List Char} {kind : Kind}
    (hm : Munched piece rest) (hk : kind.Fits piece) :
    ∃ shape : Shape, first? (piece ++ rest) = some ⟨shape, piece, rest⟩
      ∧ shape.kind? piece = some kind := by
  obtain ⟨shape, ht, hs⟩ := hm.shape
  rcases hf : first? (piece ++ rest) with _ | lexeme
  · exact absurd hs (not_matches_of_first?_eq_none hf shape (List.prefix_append _ _))
  · have hsplit := split?_of_first? hf
    have happ := Shape.append_of_split? hsplit
    have hlm := Shape.matches_of_split? hsplit
    have hlt : ¬ lexeme.shape.IsTrivia := by
      obtain ⟨c, u, hu⟩ := List.exists_cons_of_ne_nil hs.ne_nil
      obtain ⟨d, v, hv⟩ := List.exists_cons_of_ne_nil hlm.ne_nil
      rw [hu, hv] at happ
      obtain ⟨rfl, -⟩ := List.cons.inj happ
      rw [hu] at hs
      rw [hv] at hlm
      rwa [Shape.isTrivia_iff_of_family_eq (hlm.family_eq_of_head hs)]
    -- Both texts are longest at the front of the same one, so they are equally long.
    have hl := munched_of_first? hf hlt
    have hle := hl.longest shape ht piece hs (happ ▸ List.prefix_append _ _)
    have hge := hm.longest lexeme.shape hlt lexeme.text hlm (happ ▸ List.prefix_append _ _)
    obtain ⟨htext, hrest⟩ := List.append_inj happ (Nat.le_antisymm hge hle)
    obtain ⟨lshape, ltext, lrest⟩ := lexeme
    subst htext hrest
    rcases hk' : lshape.kind? ltext with _ | kind'
    · exact absurd (Shape.kind?_eq_none_iff.1 hk') hlt
    · exact ⟨lshape, rfl, (Shape.fits_of_kind? hlm hk').unique hk ▸ hk'⟩

/-! ## Blanks and comments -/

theorem Split.upToClosing?_of_unclosed {rest : List Char} : ∀ {body : List Char},
    ¬ ['*', '/'] <:+: body ++ ['*'] →
    upToClosing? (body ++ '*' :: '/' :: rest) = some (body ++ ['*', '/'], rest)
  | [], _ => rfl
  | c :: body, h => by
    rw [List.cons_append, List.infix_cons_iff, not_or] at h
    rw [List.cons_append, upToClosing?.eq_def]
    split
    · rename_i cs he
      obtain ⟨rfl, ht⟩ := List.cons.inj he
      cases body with
      | nil => cases ht
      | cons d body =>
        obtain ⟨rfl, -⟩ := List.cons.inj ht
        exact absurd ⟨body ++ ['*'], rfl⟩ h.1
    · rename_i he
      cases he
      rw [upToClosing?_of_unclosed h.2]
      rfl
    · rename_i he
      cases he

namespace Lexeme

theorem first?_of_skipped {piece rest : List Char} (h : Skipped piece rest) :
    ∃ shape : Shape, shape.IsTrivia ∧ first? (piece ++ rest) = some ⟨shape, piece, rest⟩ := by
  have hslash : isBlank '/' = false := by decide
  cases h with
  | blank hne hb hr =>
    refine ⟨.blank, trivial, ?_⟩
    have htake : rest.takeWhile isBlank = [] ∧ rest.dropWhile isBlank = rest := by
      cases rest with
      | nil => exact ⟨rfl, rfl⟩
      | cons c rest => simp [hr c rfl]
    simp [first?, Shape.all, Shape.split?, Split.run?_append hne hb, htake]
  | @line body _ hn hr =>
    refine ⟨.lineComment, trivial, ?_⟩
    have hb : ∀ c ∈ body, decide (c ≠ '\n') = true := by
      intro c hc
      rw [decide_eq_true_eq]
      rintro rfl
      exact hn hc
    have htake : rest.takeWhile (· ≠ '\n') = [] ∧ rest.dropWhile (· ≠ '\n') = rest := by
      cases rest with
      | nil => exact ⟨rfl, rfl⟩
      | cons c rest => simp [hr c rfl]
    have hs : Shape.lineComment.split? ('/' :: '/' :: (body ++ rest))
        = some ('/' :: '/' :: body, rest) := by
      rw [Shape.split?, List.takeWhile_append_of_pos hb, List.dropWhile_append_of_pos hb, htake.1,
        htake.2, List.append_nil]
    have hblank : Shape.blank.split? ('/' :: '/' :: (body ++ rest)) = none := by
      simp [Shape.split?, Split.run?, hslash]
    simp [first?, Shape.all, hblank, hs]
  | @block body _ hn =>
    refine ⟨.blockComment, trivial, ?_⟩
    have hs : Shape.blockComment.split? ('/' :: '*' :: (body ++ '*' :: '/' :: rest))
        = some ('/' :: '*' :: (body ++ ['*', '/']), rest) := by
      rw [Shape.split?, Split.upToClosing?_of_unclosed hn]
      rfl
    have hblank : Shape.blank.split? ('/' :: '*' :: (body ++ '*' :: '/' :: rest)) = none := by
      simp [Shape.split?, Split.run?, hslash]
    have hline : Shape.lineComment.split? ('/' :: '*' :: (body ++ '*' :: '/' :: rest)) = none :=
      rfl
    simp [first?, Shape.all, hblank, hline, hs]

end Lexeme

theorem map_nil_append {ε α : Type} (x : Except ε (List α)) : x.map ([] ++ ·) = x := by
  cases x <;> rfl

namespace Token

variable {piece rest : List Char}

theorem scanFrom_munched {kind : Kind} (hm : Munched piece rest) (hk : kind.Fits piece)
    (file : String) (offset : Nat) :
    scanFrom file offset (piece ++ rest) = (scanFrom file (offset + byteCount piece) rest).map
      (ofPiece file offset kind piece :: ·) := by
  obtain ⟨shape, hf, hs⟩ := Lexeme.first?_of_munched hm hk
  rw [scanFrom_of_first? hf, Lexeme.token?, hs]
  rfl

theorem scanFrom_skipped (h : Skipped piece rest) (file : String) (offset : Nat) :
    scanFrom file offset (piece ++ rest) = scanFrom file (offset + byteCount piece) rest := by
  obtain ⟨shape, ht, hf⟩ := Lexeme.first?_of_skipped h
  rw [scanFrom_of_first? hf, Lexeme.token?, Shape.kind?_eq_none_iff.2 ht]
  exact map_nil_append _

/-- A run of blanks is passed as a whole, and so is what is left of it behind its first one. -/
theorem scanFrom_blank_cons {c : Char} (hc : isBlank c = true) (file : String) (offset : Nat)
    (cs : List Char) :
    scanFrom file offset (c :: cs) = scanFrom file (offset + c.utf8Size) cs := by
  have hb : ∀ d ∈ cs.takeWhile isBlank, isBlank d = true :=
    fun d hd => List.all_eq_true.1 List.all_takeWhile d hd
  have hr : ∀ d ∈ (cs.dropWhile isBlank).head?, isBlank d = false := by
    intro d hd
    have := List.head?_dropWhile_not isBlank cs
    rw [Option.mem_def.1 hd] at this
    simpa using this
  have hwhole : Skipped (c :: cs.takeWhile isBlank) (cs.dropWhile isBlank) :=
    .blank (List.cons_ne_nil _ _) (List.forall_mem_cons.2 ⟨hc, hb⟩) hr
  have hs := scanFrom_skipped hwhole file offset
  rw [List.cons_append, List.takeWhile_append_dropWhile] at hs
  rw [hs, byteCount_cons, ← Nat.add_assoc]
  by_cases hn : cs.takeWhile isBlank = []
  · have hcs : cs.dropWhile isBlank = cs := by
      have := List.takeWhile_append_dropWhile (p := isBlank) (l := cs)
      rwa [hn, List.nil_append] at this
    rw [hn, hcs]
    rfl
  · have hs' := scanFrom_skipped (.blank hn hb hr) file (offset + c.utf8Size)
    rw [List.takeWhile_append_dropWhile] at hs'
    exact hs'.symm

theorem scanFrom_blanks (file : String) : ∀ {s : List Char}, (∀ c ∈ s, isBlank c = true) →
    ∀ (offset : Nat) (cs : List Char),
      scanFrom file offset (s ++ cs) = scanFrom file (offset + byteCount s) cs
  | [], _, _, _ => rfl
  | c :: s, h, offset, cs => by
    rw [List.forall_mem_cons] at h
    rw [List.cons_append, scanFrom_blank_cons h.1, scanFrom_blanks file h.2, byteCount_cons,
      Nat.add_assoc]

end Token

/-! ## The same text further on -/

def Position.shift (size : Nat) (position : Position) : Position :=
  ⟨position.offset + UInt32.ofNat size, position.file⟩

theorem Position.ofOffset_add (file : String) (offset size : Nat) :
    ofOffset file (offset + size) = (ofOffset file offset).shift size := by
  simp [ofOffset, shift]

def Span.shift (size : Nat) (span : Span) : Span :=
  ⟨span.start.shift size, span.stop.shift size⟩

theorem Span.ofOffset_add (file : String) (offset size length : Nat) :
    ofOffset file (offset + size) length = (ofOffset file offset length).shift size := by
  rw [ofOffset, Nat.add_right_comm, Position.ofOffset_add, Position.ofOffset_add]
  rfl

namespace Token

/-- The token of the same text further on. -/
def shift (size : Nat) (token : Token) : Token :=
  ⟨token.kind, token.text, token.span.shift size⟩

theorem ofPiece_add (file : String) (offset size : Nat) (kind : Kind) (piece : List Char) :
    ofPiece file (offset + size) kind piece = (ofPiece file offset kind piece).shift size := by
  rw [ofPiece, Span.ofOffset_add]
  rfl

theorem scanFrom_add (file : String) (size : Nat) (cs : List Char) (offset : Nat)
    {tokens : List Token} (h : scanFrom file offset cs = .ok tokens) :
    scanFrom file (offset + size) cs = .ok (tokens.map (shift size)) := by
  induction hn : cs.length using Nat.strongRecOn generalizing offset cs tokens with
  | _ n ih =>
    subst hn
    rcases hf : Lexeme.first? cs with _ | lexeme
    · cases cs with
      | nil =>
        rw [scanFrom_nil] at h ⊢
        cases h
        rw [Position.ofOffset_add]
        rfl
      | cons c cs => cases (scanFrom_of_first?_eq_none hf).symm.trans h
    · rw [scanFrom_of_first? hf] at h ⊢
      rcases hr : scanFrom file (offset + byteCount lexeme.text) lexeme.rest with fault | rest <;>
        rw [hr] at h <;> cases h
      rw [Nat.add_right_comm, ih _ (Lexeme.length_rest_lt hf) _ _ hr rfl]
      unfold Lexeme.token?
      cases lexeme.shape.kind? lexeme.text with
      | none => rfl
      | some kind =>
        simp only [Option.map_some, Option.toList_some, ofPiece_add, Except.map,
          List.singleton_append, List.map_cons]

end Token

end StyleLang

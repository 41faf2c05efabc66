import StyleLang.Proofs.Caret
import StyleLang.Proofs.Layout
import StyleLang.Proofs.Relocation
import StyleLang.Proofs.Source

/-!
# Complaints point into the source

A source of fewer than `2 ^ 32` bytes is scanned to tokens that stand in it (`Token.fixed_of_scan`).
No later stage makes up a place: reading commutes with moving tokens, so what moves no token of the
source moves no note and no complaint (`Stylesheet.fixed_of_ofSource`), and neither checking nor
evaluation points anywhere but at notes. So every complaint has its line, and is shown with it
(`Diagnostic.shown_of_within`), unless it stands too far to the right for its caret.
-/

namespace StyleLang

/-- A place in the source, at a boundary of its characters or at its end. -/
structure Position.Within (source file : String) (p : Position) : Prop where
  file_eq : p.file = file
  boundary : ∃ before after, source = before ++ after ∧ p.offset.toNat = before.utf8ByteSize

theorem Position.within_ofOffset {source file : String} {before after : List Char}
    (h : source.toList = before ++ after) (hs : source.utf8ByteSize < UInt32.size) :
    (ofOffset file (byteCount before)).Within source file := by
  have hle : byteCount before ≤ source.utf8ByteSize := by
    rw [← byteCount_toList, h, byteCount_append]
    omega
  refine ⟨rfl, String.ofList before, String.ofList after, ?_, ?_⟩
  · rw [← String.ofList_append, ← h, String.ofList_toList]
  · rw [toNat_ofOffset (Nat.lt_of_le_of_lt hle hs), utf8ByteSize_ofList]

/-! ## Places that a relocation leaves alone -/

namespace Relocation

variable (source file : String)

open Classical in
/-- Leaves the places in a source alone and takes all others to its start. -/
noncomputable def into : Relocation where
  place p := if p.Within source file then p else ⟨0, file⟩
  file _ := file
  start name := by
    by_cases h : (⟨0, name⟩ : Position).Within source file
    · exact (if_pos h).trans (congrArg (Position.mk 0) h.file_eq)
    · exact if_neg h

variable {source file}

theorem place_into {p : Position} (h : p.Within source file) : (into source file).place p = p :=
  if_pos h

theorem within_of_place_into {p : Position} (h : (into source file).place p = p) :
    p.Within source file := by
  by_cases hp : p.Within source file
  · exact hp
  · have hstart : p = ⟨0, file⟩ := h.symm.trans (if_neg hp)
    exact ⟨by rw [hstart], "", source, by simp, by rw [hstart]; rfl⟩

theorem span_into {span : Span} (h : span.start.Within source file)
    (h' : span.stop.Within source file) : (into source file).span span = span := by
  rw [Relocation.span, place_into h, place_into h']

theorem within_of_diagnostic_into {fault : Diagnostic}
    (h : (into source file).diagnostic fault = fault) : fault.position.Within source file :=
  within_of_place_into (congrArg Diagnostic.position h)

end Relocation

section source

variable {source : String} (hs : source.utf8ByteSize < UInt32.size) (file : String)

include hs

/-- What is scanned stands in the source. -/
theorem Token.fixed_of_scan : ((scan source file).map (List.map (Relocation.into source file).token)
    ).mapError (Relocation.into source file).diagnostic = scan source file := by
  have hp {b piece r : List Char} {kind : Kind} (hb : source.toList = b ++ piece ++ r) :
      (Relocation.into source file).token (.ofPiece file (byteCount b) kind piece)
        = .ofPiece file (byteCount b) kind piece := by
    have h₁ : (Position.ofOffset file (byteCount b)).Within source file :=
      Position.within_ofOffset (by rw [hb, List.append_assoc]) hs
    have h₂ : (Position.ofOffset file (byteCount b + byteCount piece)).Within source file := by
      rw [← byteCount_append]
      exact Position.within_ofOffset hb hs
    exact congrArg (Token.mk _ _) (Relocation.span_into h₁ h₂)
  obtain ⟨tokens, seen, rest, ht, h⟩ := scanFrom_tiled file [] source.toList
  have hseen : (Position.ofOffset file (byteCount seen)).Within source file :=
    Position.within_ofOffset ht.append_eq hs
  rcases h with ⟨rfl, h⟩ | ⟨c, cs, rfl, -, h⟩
  · have hf : ∀ token ∈ tokens, (Relocation.into source file).token token = token := by
      intro token hm
      obtain ⟨b, piece, r, hb, -, htoken⟩ := ht.exists_of_mem hm
      rw [htoken]
      exact hp hb
    have he : (Relocation.into source file).token (.ending (.ofOffset file (byteCount seen)))
        = .ending (.ofOffset file (byteCount seen)) :=
      congrArg (Token.mk _ _) (Relocation.span_into hseen hseen)
    have h : scan source file = .ok (tokens ++ [.ending (.ofOffset file (byteCount seen))]) := h
    rw [h]
    show Except.ok _ = Except.ok _
    rw [List.map_append, List.map_congr_left hf, List.map_id', List.map_singleton, he]
  · have h : scan source file = .error ⟨.unrecognised (String.ofList [c]),
      .ofOffset file (byteCount seen)⟩ := h
    rw [h]
    exact congrArg (fun p => Except.error (Diagnostic.mk _ p)) (Relocation.place_into hseen)

/-- What is read of a source stands in it, with all its parts. -/
theorem Stylesheet.fixed_of_ofSource :
    ((ofSource source file).map (mapNote (Relocation.into source file).note)
      ).mapError (Relocation.into source file).diagnostic = ofSource source file := by
  have h := Token.fixed_of_scan hs file
  unfold ofSource
  cases hts : Token.scan source file with
  | error fault =>
    rw [hts] at h
    exact congrArg (Except.error ·) (Except.error.inj h)
  | ok ts =>
    rw [hts] at h
    have hm : ts.map (Relocation.into source file).token = ts := Except.ok.inj h
    have hr := ofTokens_relocated (Relocation.into source file) ts file
    rw [hm] at hr
    exact hr.symm

variable {file}

theorem Stylesheet.mapNote_of_ofSource {sheet : Stylesheet} (h : ofSource source file = .ok sheet) :
    sheet.mapNote (Relocation.into source file).note = sheet := by
  have hf := fixed_of_ofSource hs file
  rw [h] at hf
  exact Except.ok.inj hf

theorem Stylesheet.within_of_mem_notes {sheet : Stylesheet} (h : ofSource source file = .ok sheet)
    {note : Note} (hn : note ∈ sheet.notes) :
    note.span.start.Within source file ∧ note.span.stop.Within source file := by
  have hm := congrArg Stylesheet.notes (mapNote_of_ofSource hs h)
  rw [notes_mapNote] at hm
  have hnote : (Relocation.into source file).note note = note := by
    obtain ⟨i, hi, rfl⟩ := List.getElem_of_mem hn
    have hg := List.getElem_of_eq hm (by simpa using hi)
    rwa [List.getElem_map] at hg
  have hspan : (Relocation.into source file).span note.span = note.span := congrArg Note.span hnote
  exact ⟨Relocation.within_of_place_into (congrArg Span.start hspan),
    Relocation.within_of_place_into (congrArg Span.stop hspan)⟩

/-! ## Complaints of each stage -/

theorem Stylesheet.within_of_ofSource_eq_error {fault : Diagnostic}
    (h : ofSource source file = .error fault) : fault.position.Within source file := by
  have hf := fixed_of_ofSource hs file
  rw [h] at hf
  exact Relocation.within_of_diagnostic_into (Except.error.inj hf)

/-- Checking blames a node at its start. -/
theorem Stylesheet.within_of_mem_diagnostics_check {sheet : Stylesheet}
    (h : ofSource source file = .ok sheet) {properties : PropertyTable} {fault : Diagnostic}
    (hf : fault ∈ (sheet.check properties).1.diagnostics) :
    fault.position.Within source file := by
  have hd := (tree_of_ofSource h).1
  rw [diagnostics_eq_notes, List.append_eq_nil_iff] at hd
  have hn : (sheet.check properties).1.notes = _ :=
    (Checker.ofProperties properties).notes_check sheet
  rw [diagnostics_eq_notes, List.mem_append, hn] at hf
  rcases hf with hf | hf
  · have hnote : fault ∈ sheet.note.diagnostic.toList := hf
    rw [hd.1] at hnote
    cases hnote
  · obtain ⟨_, hm, hf⟩ := List.mem_flatMap.1 hf
    obtain ⟨i, hi, rfl⟩ := List.getElem_of_mem hm
    have hi : i < sheet.notes.length := by
      rw [List.length_zipWith] at hi
      omega
    have hmem : sheet.notes[i] ∈ sheet.notes := List.getElem_mem hi
    have hclean : sheet.notes[i].diagnostic = none :=
      Option.toList_eq_nil_iff.1 (List.flatMap_eq_nil_iff.1 hd.2 _ hmem)
    rw [List.getElem_zipWith, Note.diagnostic_blame? hclean, Option.mem_toList,
      Option.map_eq_some_iff] at hf
    obtain ⟨cause, -, rfl⟩ := hf
    exact (within_of_mem_notes hs h hmem).1

/-- Evaluation fails at the start of a node. -/
theorem Stylesheet.within_of_emit_eq_error {sheet : Stylesheet}
    (h : ofSource source file = .ok sheet) {fault : Diagnostic} (he : sheet.emit = .error fault) :
    fault.position.Within source file := by
  let r := Relocation.into source file
  let f (note : Note) : Note := .clean (r.span note.span)
  have hf : Note.Blind f := ⟨fun _ _ => rfl, fun _ => rfl⟩
  have hmap : sheet.mapNote f = sheet.mapNote Note.cleared := by
    have hm : (sheet.mapNote r.note).mapNote Note.cleared = sheet.mapNote Note.cleared :=
      congrArg (mapNote Note.cleared) (mapNote_of_ofSource hs h)
    rw [← hm, mapNote, mapNote, mapNote, Stmt.bodyMapNote_bodyMapNote]
    rfl
  have hg : Note.Retells f id r.diagnostic := fun _ _ => rfl
  have hemit := mapError_emit_mapNote hf hg sheet
  rw [mapError_id, hmap, emit_mapNote_cleared, he] at hemit
  exact Relocation.within_of_diagnostic_into (Except.error.inj hemit).symm

end source

/-! ## Complaints with their lines -/

/-- A complaint points into the source of a file, at the boundary of a character or at the end, and
has the line that holds the place, which for the end is the last one, without its line ending. It is
shown on that line, which has its number in the source, if the caret then stands behind fewer than
`widestField` dashes, and else it cannot be shown. -/
structure Diagnostic.Shown (source file : String) (fault : Diagnostic) : Prop where
  within : fault.position.Within source file
  offset_le : fault.position.offset.toNat ≤ source.utf8ByteSize
  isSome_lineAt? : (lineAt? source.toList fault.position.offset.toNat).isSome
  display?_eq : ∃ before line after column, Line.Splits source.toList before line after
    ∧ (fault.position.offset.toNat = byteCount before + column ∧ column < byteCount line
        ∨ after = [] ∧ fault.position.offset.toNat = source.utf8ByteSize
          ∧ column = byteCount (Line.chomp line))
    ∧ let dashes := column - (line.takeWhile isIndent).length
      fault.display? source = if dashes < widestField then
        some (fault.onLine (before.count '\n' + 1) line dashes) else none

variable {source file : String}

/-- A complaint that points into a source has its line there. -/
theorem Diagnostic.shown_of_within {fault : Diagnostic} (hne : source ≠ "")
    (h : fault.position.Within source file) : fault.Shown source file := by
  have hle : fault.position.offset.toNat ≤ source.utf8ByteSize := by
    obtain ⟨before, after, hb, ho⟩ := h.boundary
    rw [ho, hb, String.utf8ByteSize_append]
    omega
  by_cases hlt : fault.position.offset.toNat < source.utf8ByteSize
  · obtain ⟨before, line, after, hs, hb, hl, hat⟩ :=
      Line.lineAt?_of_lt (byteCount_toList source ▸ hlt)
    have hcolumn : fault.position.offset.toNat - byteCount before < byteCount line := by omega
    exact ⟨h, hle, by rw [hat]; rfl, before, line, after, _, hs,
      .inl ⟨(Nat.add_sub_cancel' hb).symm, hcolumn⟩, display?_of_line? hat⟩
  · have heq : fault.position.offset.toNat = source.utf8ByteSize := by omega
    obtain ⟨before, line, hs, hat⟩ :=
      Line.lineAt?_byteCount (mt String.toList_eq_nil_iff.1 hne)
    rw [byteCount_toList, ← heq] at hat
    have hshown := display?_of_line? hat
    rw [Line.caretWidth, Line.takeWhile_isIndent_chomp, onLine, Line.trim_chomp] at hshown
    exact ⟨h, hle, by rw [hat]; rfl, before, line, [], _, hs, .inr ⟨rfl, heq, rfl⟩, hshown⟩

/-- The stylesheet of an empty source. -/
theorem Stylesheet.ofSource_empty (file : String) :
    ofSource "" file = .ok ⟨.clean ⟨⟨0, file⟩, ⟨0, file⟩⟩, []⟩ := by
  have h : Token.scan "" file = .ok [.ending (.ofOffset file 0)] := Token.scanFrom_nil file 0
  unfold ofSource
  rw [h]
  rfl

variable {options : Options}

theorem of_mem_compile_error {faults : List Diagnostic}
    (h : compile options source file = .error faults) {fault : Diagnostic} (hf : fault ∈ faults) :
    Stylesheet.ofSource source file = .error fault
      ∨ ∃ sheet, Stylesheet.ofSource source file = .ok sheet
        ∧ (fault ∈ (sheet.check options.properties).1.diagnostics
          ∨ sheet.emit = .error fault) := by
  have hc : check options source file = _ := check_eq_map
  rcases hs : Stylesheet.ofSource source file with fault' | sheet <;> rw [hs] at hc
  · rw [compile_of_check_error hc] at h
    cases h
    exact .inl (congrArg Except.error (List.mem_singleton.1 hf).symm)
  · rw [compile_of_check_ok hc, Stylesheet.emit_check] at h
    refine .inr ⟨sheet, rfl, ?_⟩
    split at h
    · cases h
      exact .inl hf
    · rcases he : sheet.emit with fault' | css <;> rw [he] at h <;> cases h
      exact .inr (congrArg Except.error (List.mem_singleton.1 hf).symm)

/-- No complaint is made about an empty source. -/
theorem compile_empty (options : Options) (file : String) : compile options "" file = .ok "" := by
  refine compile_eq_ok_iff.2 ⟨_, Stylesheet.ofSource_empty file, .inl rfl, ?_⟩
  rw [Stylesheet.emit_eq]
  rfl

theorem check_empty (options : Options) (file : String) :
    ∃ sheet, check options "" file = .ok sheet ∧ sheet.diagnostics = [] := by
  rw [check_eq_map, Stylesheet.ofSource_empty]
  exact ⟨_, rfl, rfl⟩

/-! ## A complaint too far to the right -/

/-- Blanks between an opening and what stands in it only move the latter. -/
theorem Token.scan_blanks_behind {blanks : List Char} (hb : ∀ c ∈ blanks, isBlank c)
    (file : String) (cs : List Char) :
    scanFrom file 0 (['p', ' ', '\x7b'] ++ blanks ++ cs)
      = (scanFrom file (3 + byteCount blanks) cs).map ([.ofPiece file 0 .lowerName ['p'],
        .ofPiece file 2 (.mark .openCurly) ['\x7b']] ++ ·) := by
  have hname : Lexeme.first? (['p', ' ', '\x7b'] ++ (blanks ++ cs))
      = some ⟨.lower, ['p'], ' ' :: '\x7b' :: (blanks ++ cs)⟩ := rfl
  have hcurly : Lexeme.first? ('\x7b' :: (blanks ++ cs))
      = some ⟨.mark .openCurly, ['\x7b'], blanks ++ cs⟩ := rfl
  rw [List.append_assoc, scanFrom_of_first? hname, scanFrom_blank_cons rfl,
    scanFrom_of_first? hcurly, scanFrom_blanks file hb]
  show ((scanFrom file (3 + byteCount blanks) cs).map _).map _ = _
  rcases scanFrom file (3 + byteCount blanks) cs with fault | tokens <;> rfl

/-- A property behind 70000 bytes of spaces is complained about, but the complaint cannot be
shown. -/
theorem complaint_behind_spaces {spaces : List Char} (hspace : ∀ c ∈ spaces, c = ' ')
    (hcount : byteCount spaces = 70000) :
    let source := "p \x7b" ++ String.ofList spaces ++ "size: 1px; \x7d"
    let fault : Diagnostic := ⟨.unknownProperty "size", ⟨70003, "test.icss"⟩⟩
    source.utf8ByteSize < UInt32.size
      ∧ compile ⟨.standard, false⟩ source "test.icss" = .error [fault]
      ∧ (check ⟨.standard, false⟩ source "test.icss").map Stylesheet.diagnostics = .ok [fault]
      ∧ (fault.line? source).isSome ∧ fault.display? source = none := by
  intro source fault
  -- The spaces stay a variable, as no text of that length can be evaluated here.
  let before := ['p', ' ', '\x7b'] ++ spaces
  let after := "ize: 1px; \x7d".toList
  have hsource : source.toList = before ++ 's' :: after := by
    simp [source, before, after]
  have hbefore : byteCount before = 70003 := by
    rw [byteCount_append, hcount]
    rfl
  have hscan : Token.scan source "test.icss" = .ok ([.ofPiece "test.icss" 0 .lowerName ['p'],
      .ofPiece "test.icss" 2 (.mark .openCurly) ['\x7b']] ++
      [.ofPiece "test.icss" 70003 .lowerName "size".toList,
      .ofPiece "test.icss" 70007 (.mark .colon) [':'],
      .ofPiece "test.icss" 70009 (.number .pixel) "1px".toList,
      .ofPiece "test.icss" 70012 (.mark .semicolon) [';'],
      .ofPiece "test.icss" 70014 (.mark .closeCurly) ['\x7d'],
      .ending ⟨70015, "test.icss"⟩]) := by
    rw [Token.scan, hsource,
      Token.scan_blanks_behind (fun c hc => by rw [hspace c hc]; rfl), hcount]
    decide +kernel
  have hbegun : Line.begun before = before := by
    have hn : '\n' ∉ before := by
      rw [List.mem_append, not_or]
      exact ⟨by decide, fun h => absurd (hspace _ h) (by decide)⟩
    exact @Line.begun_append [] before nofun hn
  refine ⟨?_, ?_, ?_, ?_, ?_⟩
  · rw [← byteCount_toList, hsource, byteCount_append, hbefore]
    decide +kernel
  · unfold compile check Stylesheet.ofSource
    rw [hscan]
    decide +kernel
  · unfold check Stylesheet.ofSource
    rw [hscan]
    decide +kernel
  · obtain ⟨rest, -, h⟩ := fault.line?_append hsource hbefore.symm
    rw [h]
    rfl
  · have hindent : before.takeWhile isIndent = [] := rfl
    rw [fault.display?_eq_none_iff hsource hbefore.symm (by decide), hbegun, hbefore, hindent]
    decide +kernel

/-! ## All complaints -/

/-- All complaints about a source of fewer than `2 ^ 32` bytes point into it and are shown with
their lines, save those too far to the right: those that compiling ends with, the one that keeps the
source from being read, and those on the tree of a source that is read. -/
theorem complaints_shown (options : Options) {source : String} (file : String)
    (hs : source.utf8ByteSize < UInt32.size) :
    (∀ faults, compile options source file = .error faults →
        ∀ fault ∈ faults, fault.Shown source file)
      ∧ (∀ fault, check options source file = .error fault → fault.Shown source file)
      ∧ ∀ sheet, check options source file = .ok sheet →
        ∀ fault ∈ sheet.diagnostics, fault.Shown source file := by
  by_cases hne : source = ""
  · subst hne
    obtain ⟨sheet, hc, hd⟩ := check_empty options file
    rw [compile_empty, hc]
    refine ⟨nofun, nofun, fun sheet' h fault hf => ?_⟩
    rw [← Except.ok.inj h, hd] at hf
    cases hf
  refine ⟨fun faults h fault hf => ?_, fun fault h => ?_, fun sheet h fault hf => ?_⟩ <;>
    apply Diagnostic.shown_of_within hne
  · rcases of_mem_compile_error h hf with hr | ⟨sheet, hr, hd | he⟩
    · exact Stylesheet.within_of_ofSource_eq_error hs hr
    · exact Stylesheet.within_of_mem_diagnostics_check hs hr hd
    · exact Stylesheet.within_of_emit_eq_error hs hr he
  · rw [check_eq_map] at h
    rcases hr : Stylesheet.ofSource source file with fault' | sheet <;> rw [hr] at h <;> cases h
    exact Stylesheet.within_of_ofSource_eq_error hs hr
  · rw [check_eq_map] at h
    obtain ⟨sheet', hr, rfl⟩ := map_eq_ok_iff.1 h
    exact Stylesheet.within_of_mem_diagnostics_check hs hr hf

/-- A block that is not closed is complained about at the end of the source, which is on the second
line. -/
theorem complaints_shown_unclosed :
    let source := "p \x7b\n  width: 1px;"
    let fault : Diagnostic := ⟨.misplaced "EOF" .closing, ⟨17, "a.icss"⟩⟩
    source.utf8ByteSize < UInt32.size
      ∧ compile ⟨.standard, false⟩ source "a.icss" = .error [fault]
      ∧ fault.Shown source "a.icss" := by
  intro source fault
  have hs : source.utf8ByteSize < UInt32.size := by decide +kernel
  have hc : compile ⟨.standard, false⟩ source "a.icss" = .error [fault] := by decide +kernel
  exact ⟨hs, hc, (complaints_shown _ _ hs).1 _ hc fault (List.mem_singleton_self _)⟩

/-- Behind 70000 spaces on its line a complaint cannot be shown, though it points into the source
and has its line there. -/
theorem complaint_not_shown :
    let source := "p \x7b" ++ String.ofList (List.replicate 70000 ' ') ++ "size: 1px; \x7d"
    let fault : Diagnostic := ⟨.unknownProperty "size", ⟨70003, "test.icss"⟩⟩
    source.utf8ByteSize < UInt32.size
      ∧ compile ⟨.standard, false⟩ source "test.icss" = .error [fault]
      ∧ (check ⟨.standard, false⟩ source "test.icss").map Stylesheet.diagnostics = .ok [fault]
      ∧ (fault.line? source).isSome ∧ fault.display? source = none :=
  complaint_behind_spaces (fun _ hc => List.eq_of_mem_replicate hc) (byteCount_replicate 70000 ' ')

end StyleLang

import StyleLang.CommandLine
import StyleLang.Proofs.Source
import StyleLang.Proofs.Verdicts

/-!
# Checking and compiling agree

Each stage has its own kind of faults: what keeps a source from being read is syntax, what
checking finds is neither syntax nor fatal (`Stylesheet.of_mem_diagnostics_check`), and what
evaluation stops at is fatal (`Stylesheet.fatal_of_evaluate`), and an overflow if checking finds
nothing (`Stylesheet.overflow_of_evaluate`). So the result of checking says how compiling goes
(`compile_agrees_check`).
-/

namespace StyleLang

namespace Stylesheet

variable {sheet : Stylesheet} {properties : PropertyTable} {fault : Diagnostic}

theorem of_mem_diagnostics_check (h : sheet.diagnostics = [])
    (hd : fault ∈ (sheet.check properties).1.diagnostics) :
    fault.cause.isFatal = false ∧ fault.cause.category ≠ .syntaxError := by
  have hn : (sheet.check properties).1.note.diagnostic = none := by
    rw [diagnostics, List.append_eq_nil_iff] at h
    exact Option.toList_eq_nil_iff.1 h.1
  rw [diagnostics_eq, hn, Option.toList_none, List.nil_append, List.mem_flatMap] at hd
  obtain ⟨node, hnode, hd⟩ := hd
  obtain ⟨i, hi, rfl⟩ := List.getElem_of_mem hnode
  have hall := judged_nodes h properties
  have hj := hall.get (by rwa [hall.length_eq]) hi
  obtain ⟨cause, hc, rfl⟩ := (hj.diagnostic fault).1 (Option.mem_toList.1 hd)
  exact hc.category

theorem fatal_of_evaluate (h : sheet.evaluate = .error fault) : fault.cause.isFatal = true := by
  rcases sheet.follows_evaluate .standard h with ⟨op, ho⟩ | ⟨-, violation, hv, -⟩
  · rw [ho]
    rfl
  · rw [hv]
    rfl

theorem overflow_of_evaluate (hf : (sheet.check properties).2 = 0)
    (h : sheet.evaluate = .error fault) : ∃ op, fault.cause = .overflow op := by
  rcases sheet.follows_evaluate properties h with ho | ⟨h0, -⟩
  · exact ho
  · omega

/-- A checked tree is written, or stops at what the tree itself stops at. -/
theorem emit_check_cases (sheet : Stylesheet) (properties : PropertyTable) :
    (∃ css, (sheet.check properties).1.emit = .ok css)
      ∨ ∃ fault, (sheet.check properties).1.emit = .error fault
        ∧ sheet.evaluate = .error fault := by
  rw [emit_check]
  rcases he : sheet.emit with fault | css
  · exact .inr ⟨fault, rfl, emit_eq_error he⟩
  · exact .inl ⟨css, rfl⟩

end Stylesheet

variable {options : Options} {source file : String}

theorem check_eq_ok {sheet : Stylesheet} (h : check options source file = .ok sheet) :
    ∃ sheet', Stylesheet.ofSource source file = .ok sheet'
      ∧ sheet = (sheet'.check options.properties).1 := by
  obtain ⟨sheet', hs, ⟨⟩⟩ := bind_eq_ok_iff.1 h
  exact ⟨sheet', hs, rfl⟩

theorem category_of_check {fault : Diagnostic} (h : check options source file = .error fault) :
    fault.cause.category = .syntaxError := by
  unfold check at h
  rcases hs : Stylesheet.ofSource source file with fault' | sheet' <;> rw [hs] at h <;> cases h
  exact Stylesheet.category_of_ofSource hs

/-- A tree with faults is compiled to an output or to one fatal fault, if it is evaluated at all. -/
theorem emit_cases_of_check {sheet : Stylesheet} (h : check options source file = .ok sheet) :
    (∃ css, sheet.emit = .ok css)
      ∨ ∃ fault, sheet.emit = .error fault ∧ fault.cause.isFatal = true := by
  obtain ⟨sheet', -, rfl⟩ := check_eq_ok h
  rcases sheet'.emit_check_cases options.properties with hcss | ⟨fault, he, hv⟩
  · exact .inl hcss
  · exact .inr ⟨fault, he, Stylesheet.fatal_of_evaluate hv⟩

/-- A tree without faults is compiled to an output or to one overflow. -/
theorem emit_cases_of_check_of_clean {sheet : Stylesheet}
    (h : check options source file = .ok sheet) (hd : sheet.hasDiagnostics = false) :
    (∃ css, sheet.emit = .ok css)
      ∨ ∃ op position, sheet.emit = .error ⟨.overflow op, position⟩ := by
  obtain ⟨sheet', hs, rfl⟩ := check_eq_ok h
  rw [Stylesheet.hasDiagnostics_check (Stylesheet.tree_of_ofSource hs).1] at hd
  rcases sheet'.emit_check_cases options.properties with hcss | ⟨fault, he, hv⟩
  · exact .inl hcss
  · obtain ⟨op, ho⟩ := Stylesheet.overflow_of_evaluate hd hv
    exact .inr ⟨op, fault.position, by rw [he, ← ho]⟩

theorem Stylesheet.hasDiagnostics_eq_true_iff {sheet : Stylesheet} :
    sheet.hasDiagnostics = true ↔ sheet.diagnostics ≠ [] := by
  rw [hasDiagnostics, Bool.not_eq_true', ← Bool.not_eq_true, List.isEmpty_iff]

/-- What checking finds on the tree of a source. -/
theorem of_mem_diagnostics_of_check {sheet : Stylesheet}
    (h : check options source file = .ok sheet) {fault : Diagnostic}
    (hf : fault ∈ sheet.diagnostics) :
    fault.cause.isFatal = false ∧ fault.cause.category ≠ .syntaxError := by
  obtain ⟨sheet', hs, rfl⟩ := check_eq_ok h
  exact Stylesheet.of_mem_diagnostics_check (Stylesheet.tree_of_ofSource hs).1 hf

/-- Without evaluating what has faults, compiling fails with at least one diagnostic, none of
which is a violation. -/
theorem of_compile_error {faults : List Diagnostic} (he : options.evaluateOnErrors = false)
    (h : compile options source file = .error faults) :
    faults ≠ [] ∧ ∀ fault ∈ faults, fault.cause.category ≠ .violation := by
  rcases hc : check options source file with fault | sheet
  · rw [compile_of_check_error hc] at h
    cases h
    refine ⟨List.cons_ne_nil _ _, fun fault' hm => ?_⟩
    rw [List.mem_singleton.1 hm, category_of_check hc]
    decide
  · rw [compile_of_check_ok hc, he, Bool.not_false, Bool.and_true] at h
    cases hd : sheet.hasDiagnostics with
    | true =>
      rw [hd, if_pos rfl] at h
      cases h
      refine ⟨Stylesheet.hasDiagnostics_eq_true_iff.1 hd, fun fault hm hv => ?_⟩
      have hfatal := (of_mem_diagnostics_of_check hc hm).1
      simp [Cause.isFatal, hv] at hfatal
    | false =>
      rw [hd, if_neg Bool.false_ne_true] at h
      rcases emit_cases_of_check_of_clean hc hd with ⟨css, hs⟩ | ⟨op, position, hs⟩ <;>
        rw [hs] at h <;> cases h
      refine ⟨List.cons_ne_nil _ _, fun fault hm => ?_⟩
      rw [List.mem_singleton.1 hm]
      exact nofun

/-- Where checking finds something, compiling ends the same way. -/
theorem Invocation.afterRead_of_checkDiagnostics {invocation : Invocation} {source : String}
    (hd : invocation.checkDiagnostics source ≠ [])
    (h : invocation.checkOnly = true ∨ invocation.evaluateOnErrors = false) :
    invocation.afterRead (.ok source)
      = .finish (.ofDiagnostics (invocation.checkDiagnostics source) source) := by
  rw [afterRead]
  cases hc : invocation.checkOnly with
  | true =>
    rw [if_pos rfl, afterCheck]
    cases hl : invocation.checkDiagnostics source with
    | nil => exact absurd hl hd
    | cons fault faults => rfl
  | false =>
    have he : invocation.options.evaluateOnErrors = false :=
      h.resolve_left (by rw [hc]; exact Bool.false_ne_true)
    have hcompile : compile invocation.options source (fileName invocation.input)
        = .error (invocation.checkDiagnostics source) := by
      unfold checkDiagnostics at hd ⊢
      cases hs : check invocation.options source (fileName invocation.input) with
      | error fault => exact compile_of_check_error hs
      | ok sheet =>
        rw [hs] at hd
        rw [compile_of_check_ok hs, he, Stylesheet.hasDiagnostics_eq_true_iff.2 hd]
        rfl
    rw [if_neg Bool.false_ne_true, afterCompile, hcompile]

/-- Checking decides how compiling goes: on an error of syntax both stop alike; faults on the tree
are what compiling gives, unless it goes on to an output or one fatal fault; and without faults it
comes to an output or one overflow, whether it may go on or not. So a run that does not go on gives
no violation and no empty list, and ends like one that only checks if checking finds anything. -/
theorem compile_agrees_check (properties : PropertyTable) (source file : String) :
    (∀ always, check ⟨properties, always⟩ source file = check ⟨properties, false⟩ source file)
    ∧ (∀ fault, check ⟨properties, false⟩ source file = .error fault →
        fault.cause.category = .syntaxError
        ∧ ∀ always, compile ⟨properties, always⟩ source file = .error [fault])
    ∧ (∀ sheet, check ⟨properties, false⟩ source file = .ok sheet → sheet.hasDiagnostics = true →
        compile ⟨properties, false⟩ source file = .error sheet.diagnostics
        ∧ sheet.diagnostics ≠ []
        ∧ (∀ fault ∈ sheet.diagnostics,
            fault.cause.isFatal = false ∧ fault.cause.category ≠ .syntaxError)
        ∧ ((∃ css, compile ⟨properties, true⟩ source file = .ok css)
          ∨ ∃ fault, compile ⟨properties, true⟩ source file = .error [fault]
            ∧ fault.cause.isFatal = true))
    ∧ (∀ sheet, check ⟨properties, false⟩ source file = .ok sheet → sheet.hasDiagnostics = false →
        compile ⟨properties, true⟩ source file = compile ⟨properties, false⟩ source file
        ∧ ((∃ css, compile ⟨properties, false⟩ source file = .ok css)
          ∨ ∃ op position, compile ⟨properties, false⟩ source file
            = .error [⟨.overflow op, position⟩]))
    ∧ (∀ faults, compile ⟨properties, false⟩ source file = .error faults →
        faults ≠ [] ∧ ∀ fault ∈ faults, fault.cause.category ≠ .violation)
    ∧ ∀ (invocation : Invocation) (directory : Directory),
        directory.readText invocation.input = .ok source →
        invocation.checkDiagnostics source ≠ [] →
        ({ invocation with checkOnly := true } : Invocation).run directory
            = (.ofDiagnostics (invocation.checkDiagnostics source) source, directory)
          ∧ ({ invocation with checkOnly := false, evaluateOnErrors := false } : Invocation).run
              directory
            = (.ofDiagnostics (invocation.checkDiagnostics source) source, directory) := by
  refine ⟨fun _ => rfl, fun fault hc => ?_, fun sheet hc hd => ?_, fun sheet hc hd => ?_,
    fun faults => of_compile_error rfl, fun invocation directory hr hd => ?_⟩
  · exact ⟨category_of_check hc, fun always => compile_of_check_error hc⟩
  · have ht : check ⟨properties, true⟩ source file = .ok sheet := hc
    rw [compile_of_check_ok hc, compile_of_check_ok ht, hd]
    refine ⟨rfl, Stylesheet.hasDiagnostics_eq_true_iff.1 hd,
      fun fault hm => of_mem_diagnostics_of_check hc hm, ?_⟩
    rcases emit_cases_of_check hc with ⟨css, hs⟩ | ⟨fault, hs, hf⟩
    · exact .inl ⟨css, by rw [hs]; rfl⟩
    · exact .inr ⟨fault, by rw [hs]; rfl, hf⟩
  · have ht : check ⟨properties, true⟩ source file = .ok sheet := hc
    rw [compile_of_check_ok hc, compile_of_check_ok ht, hd]
    refine ⟨rfl, ?_⟩
    rcases emit_cases_of_check_of_clean hc hd with ⟨css, hs⟩ | ⟨op, position, hs⟩
    · exact .inl ⟨css, by rw [hs]; rfl⟩
    · exact .inr ⟨op, position, by rw [hs]; rfl⟩
  · have hrun : ∀ other : Invocation, other.input = invocation.input →
        other.checkDiagnostics source = invocation.checkDiagnostics source →
        other.checkOnly = true ∨ other.evaluateOnErrors = false →
        other.run directory
          = (.ofDiagnostics (invocation.checkDiagnostics source) source, directory) := by
      intro other hi hs h
      rw [Invocation.run, hi, hr, Invocation.afterRead_of_checkDiagnostics (hs ▸ hd) h, hs]
    exact ⟨hrun _ rfl rfl (.inl rfl), hrun _ rfl rfl (.inr rfl)⟩

end StyleLang

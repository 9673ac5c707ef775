import SheetScript.Proofs.Script.SyntaxFaults

/-!
Syntax errors as they are reported. The script that a report names is the one that was started; the
one that is refused can also be a script of a document that it imports.
-/

namespace SheetScript.Document

open SheetScript.Script

/-- The message says that it is the script itself that has a syntax error. -/
def ScriptFailure.ReportsSyntax (failure : ScriptFailure) (number : Option Nat) : Prop :=
  ∃ rest, failure.message? = some (s!"Syntax error in {blockName number}" ++ rest)

theorem error_ne_syntaxError (name rest other : String) :
    "Error in " ++ name ++ rest ≠ "Syntax error in " ++ name ++ other := by
  intro same
  have sameText := congrArg String.toList same
  simp [String.toList_append] at sameText

theorem ScriptFailure.reportsSyntax_iff {failure : ScriptFailure} {number : Option Nat}
    (names : failure = .unprintable ∨ ∃ fault, failure = .stopped fault number) :
    failure.ReportsSyntax number ↔ ∃ fault, failure = .stopped (.badSyntax fault) number := by
  constructor
  · rintro ⟨rest, isMessage⟩
    rcases names with rfl | ⟨fault, rfl⟩
    · cases isMessage
    · cases fault with
      | badSyntax fault => exact ⟨fault, rfl⟩
      | _ =>
          have same := Option.some.inj isMessage
          rw [String.append_assoc] at same
          exact absurd same (error_ne_syntaxError _ _ _)
  · rintro ⟨fault, rfl⟩
    refine ⟨(fault.place?.map (s!" at {·}")).getD "" ++ (": " ++ fault.message), ?_⟩
    rw [ScriptFailure.message?, ← String.append_assoc, ← String.append_assoc]
    rfl

/-- A script is refused of a document that a script imports, itself or by documents in between. -/
def ImportRefused (setting : Setting) (source : String) (world : World) (fault : SyntaxFault) : Prop :=
  ∃ text now, Happens setting (.script source, world) (.script text, now) ∧
    Imported setting (.script text, now) ∧ Refused text fault

section

variable {setting : Setting} {source : String} {number : Option Nat} {world : World}

theorem emitted_unprintable {output : Value} {failure : ScriptFailure}
    (fails : emitted number output = .error failure) : failure = .unprintable := by
  unfold emitted at fails
  split at fails
  · cases fails
  · cases fails
  · split at fails
    · cases fails
    · split at fails
      · cases fails
      · cases fails
        rfl

theorem execute_failure {failure : ScriptFailure}
    (fails : (execute setting source number world).1 = .error failure) :
    failure = .unprintable ∨ ∃ fault, failure = .stopped fault number := by
  unfold execute at fails
  split at fails
  · exact .inl (emitted_unprintable fails)
  · rename_i fault after ran
    cases fails
    exact .inr ⟨fault, rfl⟩

theorem execute_stopped_iff {fault : ScriptFault} :
    (execute setting source number world).1 = .error (.stopped fault number) ↔
      faultAfter? (runScript setting source { world with output := .null }) = some fault := by
  unfold execute
  cases ran : runScript setting source { world with output := .null } with
  | ok names after =>
      refine ⟨fun fails => ?_, nofun⟩
      cases emitted_unprintable fails
  | error other after => simp [faultAfter?]

/-- A run starts with nothing imported, so what it comes to are the script itself and imported ones. -/
theorem runScript_badSyntax_iff (idle : world.importing = []) {fault : SyntaxFault} :
    faultAfter? (runScript setting source world) = some (.badSyntax fault) ↔
      Refused source fault ∨ ImportRefused setting source world fault := by
  have sound : SoundStack setting.workspace world.importing := idle ▸ SoundStack.nil
  have comesTo := @faultAfter_eq_badSyntax_iff setting (.script source, world) sound fault
  refine Iff.trans comesTo ⟨?_, ?_⟩
  · rintro ⟨text, now, happens, refused⟩
    rcases imported_of_happens happens with same | imported
    · cases same
      exact .inl refused
    · exact .inr ⟨text, now, happens, imported, refused⟩
  · rintro (refused | ⟨text, now, happens, -, refused⟩)
    · exact ⟨source, world, .start, refused⟩
    · exact ⟨text, now, happens, refused⟩

end

/--
A script is reported to have a syntax error exactly if it is refused itself, or if the run comes to a
script that is refused in a document it imports. The line and the position in the message are those
of the one that is refused.
-/
theorem reportsSyntax_iff_refused (setting : Setting) (source : String) (number : Option Nat)
    {world : World} (idle : world.importing = []) (failure : ScriptFailure) :
    ((execute setting source number world).1 = .error failure ∧ failure.ReportsSyntax number) ↔
      ∃ fault, failure = .stopped (.badSyntax fault) number ∧ failure.line? = fault.line? ∧
        failure.message? = some ("Syntax error in " ++ blockName number ++
          (fault.place?.map (" at " ++ ·)).getD "" ++ ": " ++ fault.message) ∧
        (Refused source fault ∨
          ImportRefused setting source { world with output := .null } fault) := by
  have stops (fault : SyntaxFault) :=
    @runScript_badSyntax_iff setting source { world with output := .null } idle fault
  constructor
  · rintro ⟨fails, reports⟩
    obtain ⟨fault, rfl⟩ := (failure.reportsSyntax_iff (execute_failure fails)).1 reports
    exact ⟨fault, rfl, rfl, rfl, (stops fault).1 (execute_stopped_iff.1 fails)⟩
  · rintro ⟨fault, rfl, -, -, refused⟩
    refine ⟨execute_stopped_iff.2 ((stops fault).2 refused), ?_⟩
    exact (ScriptFailure.reportsSyntax_iff (.inr ⟨_, rfl⟩)).2 ⟨fault, rfl⟩

def brokenImport : Setting where
  workspace := ⟨[(["b.jcss"], .file "<@ const a = 1;\nconst ( @>".toUTF8)], []⟩
  extensions := [".jcss"]

/-- The parenthesis that stands in place of a name. -/
def brokenLine : SyntaxFault :=
  .unexpected ⟨.mark .openParen, ⟨2, 7⟩⟩

theorem execute_brokenImport :
    (execute brokenImport "get('b.jcss')" (some 1) (World.start none default)).1 =
      .error (.stopped (.badSyntax brokenLine) (some 1)) := by
  refine execute_stopped_iff.2 ?_
  decide +kernel

theorem accepted_brokenImport (fault : SyntaxFault) : ¬ Refused "get('b.jcss')" fault := by
  intro refused
  have accepted : (parseScript (Text.trimChars "get('b.jcss')".toList)).toBool = true := by
    decide +kernel
  rw [refused] at accepted
  cases accepted

theorem brokenImport_reportsSyntax :
    ScriptFailure.ReportsSyntax (.stopped (.badSyntax brokenLine) (some 1)) (some 1) :=
  (ScriptFailure.reportsSyntax_iff (.inr ⟨_, rfl⟩)).2 ⟨brokenLine, rfl⟩

theorem reportsSyntax_iff_refused_brokenImport :
    (World.start none default).importing = [] ∧
      ImportRefused brokenImport "get('b.jcss')" (World.start none default) brokenLine := by
  refine ⟨rfl, ?_⟩
  obtain ⟨fault, same, -, -, refused⟩ :=
    (reportsSyntax_iff_refused brokenImport "get('b.jcss')" (some 1) rfl _).1
      ⟨execute_brokenImport, brokenImport_reportsSyntax⟩
  cases same
  exact refused.resolve_left (accepted_brokenImport brokenLine)

/-- The error is reported of a script that is not refused. -/
theorem reportsSyntax_of_accepted :
    ¬ ∀ (setting : Setting) (source : String) (number : Option Nat) (world : World)
      (failure : ScriptFailure), (execute setting source number world).1 = .error failure →
        failure.ReportsSyntax number → ∃ fault, Refused source fault := by
  intro refuses
  obtain ⟨fault, refused⟩ := refuses brokenImport "get('b.jcss')" (some 1) (World.start none default) _
    execute_brokenImport brokenImport_reportsSyntax
  exact accepted_brokenImport fault refused

end SheetScript.Document

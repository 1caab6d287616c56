import Tabular.Proofs.Job.Conversion
import Tabular.Proofs.Job.TextLines
import Tabular.Proofs.Json.Rereading

/-!
# Documents on lines and documents in a list

The same objects can come on lines, one on each, or in one list. Both readers make the same
documents of them, and a command that says itself how texts are joined asks for the same in both
modes, so its outcome is the same too. Only where no document is selected the two part: nothing is
written for lines then, but a table without rows for a list.
-/

namespace Tabular

def Directive.Joins (tokens : List String) : Prop :=
  ∃ token ∈ tokens, ∃ joining, read token = .ok (.join joining)

namespace Job

def withMode (job : Job) (mode : Mode) : Job :=
  { job with mode }

def withJoining (job : Job) (joining : Joining) : Job :=
  { job with joining }

theorem applyTokens_cons (job : Job) (index : Nat) (token : String) (tokens : List String) :
    job.applyTokens index (token :: tokens) =
      match Directive.read token with
      | .ok directive => (job.apply directive).applyTokens (index + 1) tokens
      | .error cause => .error (.atToken index cause) := by
  cases found : Directive.read token <;>
    simp [applyTokens, applyToken, found, bind, Except.bind]

theorem applyTokens_withMode (job : Job) (mode : Mode) (index : Nat) (tokens : List String) :
    (job.withMode mode).applyTokens index tokens =
      (job.applyTokens index tokens).map (·.withMode mode) := by
  induction tokens generalizing job index with
  | nil => rfl
  | cons token tokens ih =>
    rw [applyTokens_cons, applyTokens_cons]
    cases Directive.read token with
    | error cause => rfl
    | ok directive =>
      have step : (job.withMode mode).apply directive = (job.apply directive).withMode mode := by
        cases directive <;> rfl
      exact (congrArg (·.applyTokens (index + 1) tokens) step).trans (ih _ _)

theorem applyTokens_withJoining {tokens : List String} (joins : Directive.Joins tokens) (job : Job)
    (joining : Joining) (index : Nat) :
    (job.withJoining joining).applyTokens index tokens = job.applyTokens index tokens := by
  induction tokens generalizing job index with
  | nil =>
    obtain ⟨token, absent, -⟩ := joins
    cases absent
  | cons token tokens ih =>
    rw [applyTokens_cons, applyTokens_cons]
    cases found : Directive.read token with
    | error cause => rfl
    | ok directive =>
      by_cases own : ∃ joining, directive = .join joining
      · obtain ⟨joining, rfl⟩ := own
        rfl
      · have later : Directive.Joins tokens := by
          obtain ⟨other, member, stated, read⟩ := joins
          obtain rfl | member := List.mem_cons.mp member
          · exact absurd ⟨stated, Except.ok.inj (found.symm.trans read)⟩ own
          · exact ⟨other, member, stated, read⟩
        have step : (job.withJoining joining).apply directive =
            (job.apply directive).withJoining joining := by
          cases directive with
          | join other => exact absurd ⟨other, rfl⟩ own
          | _ => rfl
        exact (congrArg (·.applyTokens (index + 1) tokens) step).trans (ih later _ _)

theorem withMode_settleLabels (job : Job) (mode : Mode) :
    job.settleLabels.withMode mode = (job.withMode mode).settleLabels :=
  apply_ite (withMode · mode) _ _ _

/-- In both modes the tokens are refused for the same reason, or they make jobs that differ in
nothing but the mode. -/
theorem ofTokens_jsonLines {tokens : List String} (joins : Directive.Joins tokens) :
    ofTokens .jsonLines tokens = (ofTokens .json tokens).map (·.withMode .jsonLines) := by
  have settled (mode : Mode) :
      ofTokens mode tokens = ((ofMode mode).applyTokens 0 tokens).map settleLabels := by
    unfold ofTokens
    cases (ofMode mode).applyTokens 0 tokens <;> rfl
  have start : ofMode .jsonLines =
      ((ofMode .json).withJoining (.literal " ")).withMode .jsonLines := rfl
  rw [settled, settled, start, applyTokens_withMode, applyTokens_withJoining joins]
  cases (ofMode .json).applyTokens 0 tokens with
  | error fault => rfl
  | ok job => exact congrArg Except.ok (withMode_settleLabels job .jsonLines).symm

theorem isSome_keys_carryOut {job : Job} {directives : List Directive}
    (requests : job.keys.isSome ∨ ∃ keys, .keys keys ∈ directives) :
    (job.carryOut directives).keys.isSome := by
  induction directives generalizing job with
  | nil =>
    obtain requested | ⟨_, absent⟩ := requests
    · exact requested
    · cases absent
  | cons directive directives ih =>
    apply ih
    obtain requested | ⟨keys, member⟩ := requests
    · exact .inl (by cases directive <;> first | exact requested | rfl)
    · obtain rfl | later := List.mem_cons.mp member
      · exact .inl rfl
      · exact .inr ⟨keys, later⟩

theorem isSome_keys_of_ofTokens {mode : Mode} {tokens : List String} {job : Job}
    (accepted : ofTokens mode tokens = .ok job)
    (requests : ∃ token ∈ tokens, ∃ keys, Directive.read token = .ok (.keys keys)) :
    job.keys.isSome := by
  obtain ⟨directives, held, rfl⟩ := ofTokens_eq_ok_iff.mp accepted
  obtain ⟨token, member, keys, read⟩ := requests
  obtain ⟨before, after, rfl⟩ := List.append_of_mem member
  obtain ⟨first, second, -, heldAfter, rfl⟩ := Directive.held_append_iff.mp held
  cases heldAfter with
  | cons here rest =>
    cases read.symm.trans here
    unfold settleLabels
    split <;>
      exact isSome_keys_carryOut (.inr ⟨keys, List.mem_append_right first List.mem_cons_self⟩)

section

variable {objects : List Json}

theorem readJsonLine?_compact {object : Json} (holdable : object.Holdable)
    (shallow : object.depth ≤ Json.depthLimit) (isObject : object.isObject = true) :
    Document.readJsonLine? object.compact = some [object.reread] := by
  have read := Json.read_compact_eq_reread holdable shallow
  have kept := (Json.takenAtDepths_reread holdable shallow).2 isObject
  unfold Document.readJsonLine?
  rw [read]
  cases reread : object.reread with
  | object members => rfl
  | _ => rw [reread] at kept; cases kept

theorem readJson_array (holdable : ∀ object ∈ objects, object.Holdable)
    (shallow : ∀ object ∈ objects, object.depth < Json.depthLimit)
    (areObjects : ∀ object ∈ objects, object.isObject = true) :
    Document.readJson (Json.array objects).compact = .ok (objects.map Json.reread) := by
  have kept : (objects.map Json.reread).filter Json.isObject = objects.map Json.reread := by
    apply List.filter_eq_self.mpr
    intro document member
    obtain ⟨object, known, rfl⟩ := List.mem_map.mp member
    exact (Json.takenAtDepths_reread (holdable object known) (shallow object known).le).2
      (areObjects object known)
  rw [Document.readJson, Json.read_compact_array holdable shallow]
  exact congrArg Except.ok kept

theorem array_visible (filled : objects ≠ []) :
    Text.isBlankText (Json.array objects).compact = false := by
  obtain ⟨object, more, rfl⟩ := List.exists_cons_of_ne_nil filled
  have bracket : '[' ∈ (Json.array (object :: more)).compact.toList := by
    rw [Json.compact, String.toList_ofList, Json.chars, List.cons_append, List.cons_append]
    exact List.mem_cons_self
  exact List.all_eq_false.mpr ⟨'[', bracket, by decide⟩

theorem selectDocuments_ne_nil {job : Job} {documents : List Json} {document : Json}
    (member : document ∈ documents) (holds : job.condition.all (·.holds document) = true) :
    job.selectDocuments documents ≠ [] := by
  unfold selectDocuments
  split
  · rename_i condition known
    rw [known] at holds
    exact List.ne_nil_of_mem (List.mem_filter.mpr ⟨member, holds⟩)
  · exact List.ne_nil_of_mem member

theorem runLines_of_objects {keys : List String} {job : Job}
    (lines : ∀ object ∈ objects, Document.readJsonLine? object.compact = some [object.reread])
    (pending : List Json) :
    job.runLines keys none pending (objects.map Json.compact) =
      job.flushRun keys (pending ++ objects.map Json.reread) := by
  induction objects generalizing pending with
  | nil =>
    rw [List.map_nil, List.map_nil, List.append_nil]
    rfl
  | cons object objects ih =>
    obtain ⟨here, later⟩ := List.forall_mem_cons.mp lines
    rw [List.map_cons, runLines_of_documents here, ih later, List.append_assoc]
    rfl

/-- Where a document is selected, or where the key paths are listed, it does not matter whether the
documents come on lines. -/
theorem runJsonLines_of_objects {job : Job} {input : Text.Input}
    (lines : ∀ object ∈ objects, Document.readJsonLine? object.compact = some [object.reread])
    (visible : visibleLines input = objects.map Json.compact) (whole : lineFlaw input = none)
    (requested : job.keys.isSome)
    (selected : job.keys = some [] ∨ job.selectDocuments (objects.map Json.reread) ≠ []) :
    job.runJsonLines input = job.runDocuments (objects.map Json.reread) := by
  obtain ⟨keys, requested⟩ := Option.isSome_iff_exists.mp requested
  cases keys with
  | nil =>
    have documents : (visibleLines input).flatMap
        (fun line => (Document.readJsonLine? line).getD []) = objects.map Json.reread := by
      rw [visible, List.flatMap_map, List.map_eq_flatMap]
      refine List.flatMap_congr fun object member => ?_
      rw [lines object member, Option.getD_some]
    have unbroken : (Text.validLines input.lines).2 = false := by
      simpa [lineFlaw] using whole
    rw [← documents]
    simp only [runJsonLines, requested, unbroken]
    rfl
  | cons key keys =>
    have some : job.selectDocuments (objects.map Json.reread) ≠ [] := by
      refine selected.resolve_left fun none => ?_
      rw [requested] at none
      cases none
    rw [runJsonLines_of_keys requested (List.cons_ne_nil _ _), whole, visible,
      runLines_of_objects lines, List.nil_append, flushRun, runDocuments]
    obtain ⟨document, others, known⟩ := List.exists_cons_of_ne_nil some
    simp only [requested, known]

end

/-- Objects on lines, with blank lines or without, have the same outcome as a list of the same
objects, for every command that says how texts are joined and that requests keys; and the tokens
that are refused are refused for the same reason in both modes. Where the command names keys, one of
the objects must pass its filter. -/
theorem run_lines_eq_run_list {tokens : List String} {objects : List Json} {input : Text.Input}
    (filled : objects ≠ []) (areObjects : ∀ object ∈ objects, object.isObject = true)
    (holdable : ∀ object ∈ objects, object.Holdable)
    (shallow : ∀ object ∈ objects, object.depth < 100)
    (joins : Directive.Joins tokens)
    (requests : ∃ token ∈ tokens, ∃ keys, Directive.read token = .ok (.keys keys))
    (selects : ∀ job, ofTokens .json tokens = .ok job → job.keys ≠ some [] →
      ∃ object ∈ objects, job.condition.all (·.holds object.reread) = true)
    (visible : visibleLines input = objects.map Json.compact) (whole : lineFlaw input = none) :
    (ofTokens .jsonLines tokens).map (·.run input) =
      (ofTokens .json tokens).map (·.run (.ofText (Json.array objects).compact)) := by
  have shallow : ∀ object ∈ objects, object.depth < Json.depthLimit := fun object member =>
    (shallow object member).trans (by decide)
  have lines : ∀ object ∈ objects,
      Document.readJsonLine? object.compact = some [object.reread] := fun object member =>
    readJsonLine?_compact (holdable object member) (shallow object member).le
      (areObjects object member)
  have nonempty : input.isEmpty = false := by
    cases input with
    | nil => exact absurd (List.map_eq_nil_iff.mp visible.symm) filled
    | cons mark input => rfl
  rw [ofTokens_jsonLines joins]
  cases accepted : ofTokens .json tokens with
  | error fault => rfl
  | ok job =>
    have list := run_of_json (mode_of_ofTokens accepted) (array_visible filled)
      (readJson_array holdable shallow areObjects)
    have requested : job.keys.isSome := isSome_keys_of_ofTokens accepted requests
    have selected : job.keys = some [] ∨ job.selectDocuments (objects.map Json.reread) ≠ [] := by
      by_cases listed : job.keys = some []
      · exact .inl listed
      · obtain ⟨object, member, holds⟩ := selects job accepted listed
        exact .inr (selectDocuments_ne_nil (List.mem_map_of_mem member) holds)
    have onLines : (job.withMode .jsonLines).run input =
        (job.withMode .jsonLines).runJsonLines input := by
      rw [run, nonempty, if_neg Bool.false_ne_true]
      rfl
    have same : (job.withMode .jsonLines).runJsonLines input =
        (job.withMode .jsonLines).runDocuments (objects.map Json.reread) :=
      runJsonLines_of_objects lines visible whole requested selected
    refine congrArg Except.ok (onLines.trans (same.trans (Eq.trans ?_ list.symm)))
    rfl

/-- Two objects with a blank line between them, of which the second passes the filter. -/
theorem run_lines_eq_run_list_filtered :
    let objects : List Json :=
      [.object [("a", .int 1)], .object [("a", .string "u"), ("b", .array [.int 2])]]
    let tokens := ["filter..[a]=='u'", "merge:+", "keys[a]", "out..csv"]
    let input := Text.Input.ofText "\x7b\"a\":1\x7d\n \n\x7b\"a\":\"u\",\"b\":[2]\x7d\n"
    visibleLines input = objects.map Json.compact ∧ lineFlaw input = none ∧
      (ofTokens .jsonLines tokens).map (·.run input) = .ok (.write "a\nu\n") ∧
      (ofTokens .jsonLines tokens).map (·.run input) =
        (ofTokens .json tokens).map (·.run (.ofText (Json.array objects).compact)) := by
  intro objects tokens input
  have visible : visibleLines input = objects.map Json.compact := rfl
  have whole : lineFlaw input = none := rfl
  have holdable : ∀ object ∈ objects, object.Holdable := by
    refine List.forall_mem_cons.mpr ⟨?_, List.forall_mem_cons.mpr ⟨?_, nofun⟩⟩
    · exact .object (List.forall_mem_singleton.mpr (.int (by decide) (by decide)))
    · refine .object (List.forall_mem_cons.mpr ⟨.string "u", List.forall_mem_singleton.mpr ?_⟩)
      exact .array (List.forall_mem_singleton.mpr (.int (by decide) (by decide)))
  have joins : Directive.Joins tokens := ⟨"merge:+", by decide, .literal "+", rfl⟩
  have requests : ∃ token ∈ tokens, ∃ keys, Directive.read token = .ok (.keys keys) :=
    ⟨"keys[a]", by decide, ["a"], rfl⟩
  have selects : ∀ job, ofTokens .json tokens = .ok job → job.keys ≠ some [] →
      ∃ object ∈ objects, job.condition.all (·.holds object.reread) = true := by
    intro job accepted _
    cases accepted
    exact ⟨_, List.mem_cons_of_mem _ List.mem_cons_self, rfl⟩
  exact ⟨visible, whole, rfl,
    run_lines_eq_run_list (by decide) (by decide) holdable (by decide) joins requests selects
      visible whole⟩

end Job

end Tabular

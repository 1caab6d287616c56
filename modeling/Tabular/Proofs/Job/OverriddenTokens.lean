import Tabular.Proofs.Job.TokenOrder
import Tabular.Settings

/-!
# Overridden tokens

On most matters the last directive counts, so a token can be dropped when a later token is about the
same matter; only edits and formulas add up. A token about the output is the one exception: it need
not give a number of levels, and then that of an earlier token stays.
-/

namespace Tabular

/-- Whether each directive on a matter counts, not only the last one. -/
def Matter.addsUp : Matter → Bool
  | edits _ | formulas => true
  | _ => false

theorem Settings.expand_eq_append (settings : Settings) (mode : Mode) (tokens : List String) :
    settings.expand mode tokens =
      settings.expand mode [] ++ tokens.flatMap settings.expandToken := by
  rw [expand, expand, List.append_nil, List.flatMap_append]

namespace Directive

def levels? : Directive → Option Nat
  | output _ levels => levels
  | _ => none

/-- The last number of levels that some directives ask for. -/
def lastLevels (directives : List Directive) : Option Nat :=
  (directives.filterMap levels?).getLast?

def askedLevels (tokens : List String) : Option Nat :=
  lastLevels (tokens.filterMap read?)

/-- A token is about the matter of an earlier one, on which the last token counts. -/
def Overrides (later earlier : String) : Prop :=
  matter? later = matter? earlier ∧ (matter? earlier).any fun matter => !matter.addsUp

instance (later earlier : String) : Decidable (Overrides later earlier) :=
  inferInstanceAs (Decidable (_ ∧ _))

theorem lastLevels_append (first second : List Directive) :
    lastLevels (first ++ second) = (lastLevels second).or (lastLevels first) := by
  rw [lastLevels, List.filterMap_append, List.getLast?_append]
  rfl

theorem askedLevels_append (first second : List String) :
    askedLevels (first ++ second) = (askedLevels second).or (askedLevels first) := by
  rw [askedLevels, List.filterMap_append, lastLevels_append]
  rfl

theorem levels?_eq_none {directive : Directive} (other : directive.matter ≠ .output) :
    directive.levels? = none := by
  cases directive with
  | output => exact absurd rfl other
  | _ => rfl

theorem lastLevels_filter_output (directives : List Directive) :
    lastLevels (directives.filter (·.matter = .output)) = lastLevels directives := by
  have same : (directives.filter (·.matter = .output)).filterMap levels? =
      directives.filterMap levels? := by
    rw [List.filterMap_filter]
    apply List.filterMap_congr
    intro directive _
    by_cases output : directive.matter = .output
    · simp [output]
    · simp [output, levels?_eq_none output]
  rw [lastLevels, same]
  rfl

theorem askedLevels_filter_output (tokens : List String) :
    askedLevels (tokens.filter (matter? · = some .output)) = askedLevels tokens := by
  rw [askedLevels, ← filter_filterMap_read?, lastLevels_filter_output]
  rfl

theorem Overrides.exists_directives {later earlier : String} (overrides : Overrides later earlier) :
    ∃ second first, read? later = some second ∧ read? earlier = some first ∧
      second.matter = first.matter ∧ first.matter.addsUp = false := by
  obtain ⟨same, replaced⟩ := overrides
  cases found : read? earlier with
  | none => simp [matter?, found] at replaced
  | some first =>
    have about : matter? later = some first.matter := by rw [same, matter?, found, Option.map_some]
    obtain ⟨second, here, own⟩ := Option.map_eq_some_iff.mp about
    refine ⟨second, first, here, rfl, own, ?_⟩
    simpa [matter?, found] using replaced

end Directive

namespace Job

open Directive

def withoutLevels (job : Job) : Job :=
  { job with levels := 0 }

theorem eq_with_levels {job other : Job} (same : job.withoutLevels = other.withoutLevels) :
    job = { other with levels := job.levels } :=
  congrArg (fun rest : Job => { rest with levels := job.levels }) same

theorem eq_iff_levels_eq {job other : Job} (same : job.withoutLevels = other.withoutLevels) :
    job = other ↔ job.levels = other.levels := by
  constructor
  · exact congrArg levels
  · intro levels
    rw [eq_with_levels same, levels]

theorem withoutLevels_apply (job : Job) (directive : Directive) :
    (job.withoutLevels.apply directive).withoutLevels = (job.apply directive).withoutLevels := by
  cases directive <;> rfl

theorem withoutLevels_carryOut_congr {job other : Job}
    (same : job.withoutLevels = other.withoutLevels) (directives : List Directive) :
    (job.carryOut directives).withoutLevels = (other.carryOut directives).withoutLevels := by
  induction directives generalizing job other with
  | nil => exact same
  | cons directive directives ih =>
    apply ih
    rw [← withoutLevels_apply job, same, withoutLevels_apply]

theorem withoutLevels_settleLabels (job : Job) :
    job.settleLabels.withoutLevels = job.withoutLevels.settleLabels :=
  apply_ite withoutLevels _ _ _

theorem levels_apply (job : Job) (directive : Directive) :
    (job.apply directive).levels = directive.levels?.getD job.levels := by
  cases directive <;> rfl

theorem levels_carryOut (job : Job) (directives : List Directive) :
    (job.carryOut directives).levels = (lastLevels directives).getD job.levels := by
  induction directives generalizing job with
  | nil => rfl
  | cons directive directives ih =>
    have alone : lastLevels [directive] = directive.levels? := by
      cases asked : directive.levels? <;> simp [lastLevels, asked]
    rw [carryOut_cons, ih, levels_apply, ← List.singleton_append, lastLevels_append, alone]
    cases lastLevels directives <;> rfl

/-- A directive leaves nothing but levels of one on the same matter just before it. -/
theorem apply_apply_of_matter_eq (job : Job) {first second : Directive}
    (same : second.matter = first.matter) (replaced : first.matter.addsUp = false) :
    ((job.apply first).apply second).withoutLevels = (job.apply second).withoutLevels := by
  cases first with
  | edit | formula => cases replaced
  | _ => cases second <;> first | rfl | cases same

theorem carryOut_cons_of_mem {first second : Directive} {behind : List Directive}
    (member : second ∈ behind) (same : second.matter = first.matter)
    (replaced : first.matter.addsUp = false) (job : Job) :
    (job.carryOut (first :: behind)).withoutLevels = (job.carryOut behind).withoutLevels := by
  induction behind generalizing job with
  | nil => cases member
  | cons next behind ih =>
    by_cases own : next.matter = first.matter
    · rw [carryOut_cons, carryOut_cons, carryOut_cons]
      apply withoutLevels_carryOut_congr
      exact apply_apply_of_matter_eq job own replaced
    · -- The first directive changes places with the next one and comes closer to the second.
      have later : second ∈ behind := by
        refine (List.mem_cons.mp member).resolve_left ?_
        rintro rfl
        exact own same
      have swapped := apply_comm job (Ne.symm own)
      rw [carryOut_cons, carryOut_cons, swapped, carryOut_cons]
      exact ih later (job.apply next)

/-- What tokens make of a job. -/
def carried (job : Job) (tokens : List String) : Job :=
  job.carryOut (tokens.filterMap read?)

theorem carried_append (job : Job) (first second : List String) :
    job.carried (first ++ second) = (job.carried first).carried second := by
  rw [carried, List.filterMap_append, carryOut_append]
  rfl

theorem carried_cons (job : Job) (token : String) (tokens : List String) :
    job.carried (token :: tokens) = (job.carried [token]).carried tokens := by
  rw [← carried_append, List.singleton_append]

theorem carried_cons_of_overrides {later earlier : String} {behind : List String}
    (member : later ∈ behind) (overrides : Overrides later earlier) (job : Job) :
    (job.carried (earlier :: behind)).withoutLevels = (job.carried behind).withoutLevels := by
  obtain ⟨second, first, here, found, same, replaced⟩ := overrides.exists_directives
  have known : second ∈ behind.filterMap read? := List.mem_filterMap.mpr ⟨later, member, here⟩
  rw [carried, List.filterMap_cons_some found]
  exact carryOut_cons_of_mem known same replaced job

theorem carried_filter_append {kept : String → Bool} {first second : List String}
    (overridden : ∀ token ∈ first, kept token = false → ∃ later ∈ second, Overrides later token)
    (job : Job) :
    (job.carried (first.filter kept ++ second)).withoutLevels =
      (job.carried (first ++ second)).withoutLevels := by
  induction first generalizing job with
  | nil => rfl
  | cons token first ih =>
    obtain ⟨here, others⟩ := List.forall_mem_cons.mp overridden
    cases keeps : kept token with
    | true =>
      rw [List.filter_cons_of_pos keeps, List.cons_append, List.cons_append, carried_cons,
        carried_cons job token (first ++ second)]
      exact ih others (job.carried [token])
    | false =>
      obtain ⟨later, member, overrides⟩ := here keeps
      rw [List.filter_cons_of_neg (by simp [keeps]), List.cons_append,
        carried_cons_of_overrides (List.mem_append_right first member) overrides]
      exact ih others job

theorem ofTokens_of_subset {mode : Mode} {tokens chosen : List String} {job : Job}
    (accepted : ofTokens mode tokens = .ok job) (included : chosen ⊆ tokens) :
    ofTokens mode chosen = .ok ((ofMode mode).carried chosen).settleLabels := by
  obtain ⟨directives, held, -⟩ := ofTokens_eq_ok_iff.mp accepted
  have known := (held_iff.mp held).1
  refine ofTokens_eq_ok_iff.mpr ⟨_, held_iff.mpr ⟨?_, rfl⟩, rfl⟩
  intro token member
  exact known token (included member)

theorem levels_settleLabels (job : Job) : job.settleLabels.levels = job.levels := by
  unfold settleLabels
  split <;> rfl

theorem levels_carried (mode : Mode) (tokens : List String) :
    ((ofMode mode).carried tokens).settleLabels.levels = (askedLevels tokens).getD 0 := by
  have flat : (ofMode mode).levels = 0 := by cases mode <;> rfl
  rw [levels_settleLabels, carried, levels_carryOut, flat]
  rfl

/-- Tokens that make the same of a job but for its levels ask for the same job exactly when they ask
for the same levels. -/
theorem ofTokens_of_withoutLevels_eq {mode : Mode} {tokens chosen : List String} {job : Job}
    (accepted : ofTokens mode tokens = .ok job) (included : chosen ⊆ tokens)
    (same : ((ofMode mode).carried chosen).withoutLevels =
      ((ofMode mode).carried tokens).withoutLevels) :
    ∃ reduced, ofTokens mode chosen = .ok reduced ∧
      reduced = { job with levels := reduced.levels } ∧
      (reduced = job ↔ (askedLevels chosen).getD 0 = (askedLevels tokens).getD 0) := by
  have all := ofTokens_of_subset accepted (List.Subset.refl tokens)
  rw [accepted, Except.ok.injEq] at all
  have settled : ((ofMode mode).carried chosen).settleLabels.withoutLevels = job.withoutLevels := by
    rw [all, withoutLevels_settleLabels, withoutLevels_settleLabels, same]
  refine ⟨_, ofTokens_of_subset accepted included, eq_with_levels settled, ?_⟩
  rw [eq_iff_levels_eq settled, all, levels_carried, levels_carried]

/-- The defaults that no token of the command overrides. -/
def standing (defaults tokens : List String) : List String :=
  defaults.filter fun token => !tokens.any fun later => Overrides later token

theorem overrides_of_output {later earlier : String} (about : matter? later = some .output)
    (output : matter? earlier = some .output) : Overrides later earlier :=
  ⟨about.trans output.symm, by rw [output]; rfl⟩

/-- The levels of defaults do not outlast a token about the output. -/
theorem askedLevels_standing (defaults tokens : List String) :
    askedLevels (standing defaults tokens) =
      if ∃ token ∈ tokens, matter? token = some .output then none else askedLevels defaults := by
  rw [← askedLevels_filter_output, standing, List.filter_filter]
  split
  · rename_i known
    obtain ⟨later, member, about⟩ := known
    have overridden : defaults.filter (fun token => decide (matter? token = some .output) &&
        !tokens.any fun later => Overrides later token) = [] := by
      refine List.filter_eq_nil_iff.mpr ?_
      intro token _ kept
      simp only [Bool.and_eq_true, decide_eq_true_eq, Bool.not_eq_true', List.any_eq_false] at kept
      exact kept.2 later member (overrides_of_output about kept.1)
    rw [overridden]
    rfl
  · rename_i unknown
    have kept : defaults.filter (fun token => decide (matter? token = some .output) &&
        !tokens.any fun later => Overrides later token) =
          defaults.filter (matter? · = some .output) := by
      apply List.filter_congr
      intro token _
      by_cases output : matter? token = some .output
      · have stands : tokens.any (fun later => Overrides later token) = false := by
          refine List.any_eq_false.mpr ?_
          intro later member overrides
          exact unknown ⟨later, member, (of_decide_eq_true overrides).1.trans output⟩
        rw [stands, Bool.not_false, Bool.and_true]
      · simp [output]
    rw [kept, askedLevels_filter_output]

/-- A token can be dropped when a later token is about the same matter: the command is accepted all
the same, and it asks for the same job, but for the levels of an output. These are the same too,
unless the token gave other levels than those in front of it and none are given behind it. Likewise
all defaults can be dropped that the tokens of a command override, and the levels of the defaults
show only through tokens about the output that give none. -/
theorem ofTokens_without_overridden (mode : Mode) :
    (∀ {before behind : List String} {earlier later : String} {job : Job},
      ofTokens mode (before ++ earlier :: behind) = .ok job → later ∈ behind →
      Overrides later earlier →
      ∃ reduced, ofTokens mode (before ++ behind) = .ok reduced ∧
        reduced = { job with levels := reduced.levels } ∧
        (reduced = job ↔ ∀ levels, askedLevels [earlier] = some levels →
          askedLevels behind = none → (askedLevels before).getD 0 = levels)) ∧
    ∀ {settings : Settings} {tokens : List String} {job : Job},
      ofTokens mode (settings.expand mode tokens) = .ok job →
      let defaults := settings.expand mode []
      let given := tokens.flatMap settings.expandToken
      ∃ reduced, ofTokens mode (standing defaults given ++ given) = .ok reduced ∧
        reduced = { job with levels := reduced.levels } ∧
        (reduced = job ↔ ((∃ token ∈ given, matter? token = some .output) →
          askedLevels given = none → (askedLevels defaults).getD 0 = 0)) := by
  constructor
  · intro before behind earlier later job accepted member overrides
    have included : before ++ behind ⊆ before ++ earlier :: behind := by simp
    have same : ((ofMode mode).carried (before ++ behind)).withoutLevels =
        ((ofMode mode).carried (before ++ earlier :: behind)).withoutLevels := by
      rw [carried_append, carried_append, carried_cons_of_overrides member overrides]
    obtain ⟨reduced, reads, levelled, equal⟩ := ofTokens_of_withoutLevels_eq accepted included same
    refine ⟨reduced, reads, levelled, equal.trans ?_⟩
    rw [← List.singleton_append, askedLevels_append, askedLevels_append before,
      askedLevels_append [earlier]]
    cases askedLevels behind <;> cases askedLevels [earlier] <;> simp
  · intro settings tokens job accepted defaults given
    have whole : settings.expand mode tokens = defaults ++ given :=
      settings.expand_eq_append mode tokens
    rw [whole] at accepted
    have included : standing defaults given ++ given ⊆ defaults ++ given :=
      (List.filter_sublist.append_right given).subset
    have same : ((ofMode mode).carried (standing defaults given ++ given)).withoutLevels =
        ((ofMode mode).carried (defaults ++ given)).withoutLevels := by
      apply carried_filter_append
      intro token _ dropped
      simpa using dropped
    obtain ⟨reduced, reads, levelled, equal⟩ := ofTokens_of_withoutLevels_eq accepted included same
    refine ⟨reduced, reads, levelled, equal.trans ?_⟩
    rw [askedLevels_append, askedLevels_append, askedLevels_standing]
    cases askedLevels given with
    | some levels => simp
    | none =>
      rw [Option.none_or, Option.none_or]
      split
      · rename_i about
        constructor
        · intro same _ _
          exact same.symm
        · intro flat
          exact (flat about rfl).symm
      · rename_i elsewhere
        exact iff_of_true rfl fun about => absurd about elsewhere

/-- A sorting between levels and a formula, and defaults of which a formula stands. -/
theorem ofTokens_without_overridden_sort :
    let behind := ["wrap:quote", "sort[0]", "calc([0])"]
    let settings : Settings :=
      { defaults := [("csv", ["out..table", "sort[1]:desc", "calc([0])"])]
        aliases := [("wide", ["group[0]:count", "out..csv"])] }
    "sort[0]" ∈ behind ∧ Overrides "sort[0]" "sort[1]:desc" ∧
    (∃ job, ofTokens .csv (["out..json..levels:1"] ++ "sort[1]:desc" :: behind) = .ok job ∧
      ofTokens .csv (["out..json..levels:1"] ++ behind) = .ok job) ∧
    ∃ job, ofTokens .csv (settings.expand .csv ["@wide", "sort[0]"]) = .ok job ∧
      ofTokens .csv ["calc([0])", "group[0]:count", "out..csv", "sort[0]"] = .ok job := by
  intro behind settings
  have member : "sort[0]" ∈ behind := by decide
  have overrides : Overrides "sort[0]" "sort[1]:desc" := by decide +kernel
  refine ⟨member, overrides, ?_, ?_⟩
  · have isOk : (ofTokens .csv (["out..json..levels:1"] ++
        "sort[1]:desc" :: behind)).toOption.isSome := by
      decide +kernel
    cases accepted : ofTokens .csv (["out..json..levels:1"] ++ "sort[1]:desc" :: behind) with
    | error fault =>
      rw [accepted] at isOk
      cases isOk
    | ok job =>
      obtain ⟨reduced, reads, -, same⟩ :=
        (ofTokens_without_overridden .csv).1 accepted member overrides
      have unasked : askedLevels ["sort[1]:desc"] = none := by decide +kernel
      have equal : reduced = job := same.mpr (by simp [unasked])
      exact ⟨job, rfl, equal ▸ reads⟩
  · have isOk : (ofTokens .csv (settings.expand .csv ["@wide", "sort[0]"])).toOption.isSome := by
      decide +kernel
    cases accepted : ofTokens .csv (settings.expand .csv ["@wide", "sort[0]"]) with
    | error fault =>
      rw [accepted] at isOk
      cases isOk
    | ok job =>
      obtain ⟨reduced, reads, -, same⟩ := (ofTokens_without_overridden .csv).2 accepted
      have unasked : askedLevels (settings.expand .csv []) = none := by decide +kernel
      have equal : reduced = job := same.mpr (by simp [unasked])
      have tokens : standing (settings.expand .csv [])
          (["@wide", "sort[0]"].flatMap settings.expandToken) ++
            ["@wide", "sort[0]"].flatMap settings.expandToken =
          ["calc([0])", "group[0]:count", "out..csv", "sort[0]"] := by
        decide +kernel
      rw [tokens, equal] at reads
      exact ⟨job, rfl, reads⟩

/-- Levels stay where a later token about the output gives none. -/
theorem ofTokens_keeps_levels :
    Overrides "out..json" "out..json..levels:1" ∧
      ofTokens .csv ["out..json..levels:1", "out..json"] =
        .ok { ofMode .csv with form := .json, levels := 1 } ∧
      ofTokens .csv ["out..json"] = .ok { ofMode .csv with form := .json } ∧
      { ofMode .csv with form := .json, levels := 1 } ≠ { ofMode .csv with form := .json } := by
  refine ⟨by decide +kernel, rfl, rfl, ?_⟩
  intro same
  exact absurd (congrArg levels same) (by decide)

end Job

end Tabular

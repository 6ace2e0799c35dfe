import Propositional.CommandLine.Options

/-!
# The options of some settings

The options take each value from the one setting that gives it, or from the defaults, and there
are no options at all where an option is set twice. So the order of the settings does not
matter, and neither does `-v`, which may be repeated and gives no value.

Results:
1. `ofSettings_eq_some_iff`: the options that the settings make.
2. `ofSettings_eq_of_perm`: settings in another order, and with more of `-v`, make the same
   options.
-/

namespace Propositional.CommandLine

/-- Two formulas, or the same option twice. -/
def Setting.Conflicts : Setting → Setting → Prop
  | .expression _, .expression _ => True
  | .format _, .format _ => True
  | .latex, .latex => True
  | .maxVariables _, .maxVariables _ => True
  | _, _ => False

/-- Each option has the value that is set, or its default if none is. -/
structure Options.MadeBy (o : Options) (settings : List Setting) : Prop where
  once : settings.Pairwise fun a b => ¬ a.Conflicts b
  expression : .expression o.expression ∈ settings ∨
    (∀ text, .expression text ∉ settings) ∧ o.expression = "A ^ B"
  format : .format o.format ∈ settings ∨
    (∀ format, .format format ∉ settings) ∧ o.format = .table
  latex : o.latex = true ↔ .latex ∈ settings
  maxVariables : .maxVariables o.maxVariables ∈ settings ∨
    (∀ count, .maxVariables count ∉ settings) ∧ o.maxVariables = 10

/-! ## The entries of one option -/

section Single

variable {α : Type} {default value : α}

theorem single_eq_some_iff {values : List α} :
    single default values = some value ↔
      values.Pairwise (fun _ _ => False) ∧ (value ∈ values ∨ values = [] ∧ value = default) := by
  match values with
  | [] => simp [single, eq_comm]
  | [only] => simp [single, eq_comm]
  | first :: second :: rest =>
    refine iff_of_false (by simp [single]) fun h => ?_
    exact List.rel_of_pairwise_cons h.1 List.mem_cons_self

theorem single_perm {values values' : List α} (h : values.Perm values') :
    single default values = single default values' := by
  match values with
  | [] => rw [h.nil_eq]
  | [only] => rw [List.singleton_perm.1 h]
  | first :: second :: rest =>
    have length := h.length_eq
    match values' with
    | [] | [_] => simp at length
    | _ :: _ :: _ => rfl

/-- There is one entry at most if no two settings have one. -/
theorem pairwise_filterMap_false {entry : Setting → Option α} {settings : List Setting} :
    (settings.filterMap entry).Pairwise (fun _ _ => False) ↔
      settings.Pairwise fun a b => ¬ ((entry a).isSome ∧ (entry b).isSome) := by
  rw [List.pairwise_filterMap]
  refine List.Pairwise.iff fun a b => ?_
  cases entry a <;> cases entry b <;> simp

/-- The one entry of some settings, where `make` makes them. -/
theorem single_filterMap_eq_some_iff {entry : Setting → Option α} {make : α → Setting}
    (made : ∀ setting value, entry setting = some value ↔ setting = make value)
    {settings : List Setting} :
    single default (settings.filterMap entry) = some value ↔
      settings.Pairwise (fun a b => ¬ ((entry a).isSome ∧ (entry b).isSome)) ∧
        (make value ∈ settings ∨ (∀ other, make other ∉ settings) ∧ value = default) := by
  have mem (other : α) : other ∈ settings.filterMap entry ↔ make other ∈ settings := by
    simp [List.mem_filterMap, made]
  rw [single_eq_some_iff, pairwise_filterMap_false, mem, List.eq_nil_iff_forall_not_mem]
  simp only [mem]

end Single

/-! ## All options -/

theorem Setting.expression?_eq_some (setting : Setting) (text : String) :
    setting.expression? = some text ↔ setting = .expression text := by
  cases setting <;> simp [expression?]

theorem Setting.format?_eq_some (setting : Setting) (format : Format) :
    setting.format? = some format ↔ setting = .format format := by
  cases setting <;> simp [format?]

theorem Setting.maxVariables?_eq_some (setting : Setting) (count : Nat) :
    setting.maxVariables? = some count ↔ setting = .maxVariables count := by
  cases setting <;> simp [maxVariables?]

/-- A conflict is one between entries of one option. -/
theorem Setting.not_conflicts_iff (a b : Setting) :
    ¬ a.Conflicts b ↔
      ¬ (a.expression?.isSome ∧ b.expression?.isSome) ∧ ¬ (a.format?.isSome ∧ b.format?.isSome) ∧
        ¬ (a.latex?.isSome ∧ b.latex?.isSome) ∧
        ¬ (a.maxVariables?.isSome ∧ b.maxVariables?.isSome) := by
  cases a <;> cases b <;>
    simp [Conflicts, expression?, format?, latex?, maxVariables?]

theorem once_iff {settings : List Setting} :
    settings.Pairwise (fun a b => ¬ a.Conflicts b) ↔
      settings.Pairwise (fun a b => ¬ (a.expression?.isSome ∧ b.expression?.isSome)) ∧
      settings.Pairwise (fun a b => ¬ (a.format?.isSome ∧ b.format?.isSome)) ∧
      settings.Pairwise (fun a b => ¬ (a.latex?.isSome ∧ b.latex?.isSome)) ∧
      settings.Pairwise (fun a b => ¬ (a.maxVariables?.isSome ∧ b.maxVariables?.isSome)) := by
  simp only [Setting.not_conflicts_iff, List.pairwise_and_iff]

/-- The flag has no value of its own, and is either there or not. -/
theorem single_latex_eq_some_iff {settings : List Setting} {value : Bool} :
    single false (settings.filterMap Setting.latex?) = some value ↔
      settings.Pairwise (fun a b => ¬ (a.latex?.isSome ∧ b.latex?.isSome)) ∧
        (value = true ↔ .latex ∈ settings) := by
  have mem (other : Bool) :
      other ∈ settings.filterMap Setting.latex? ↔ other = true ∧ .latex ∈ settings := by
    rw [List.mem_filterMap]
    constructor
    · rintro ⟨setting, there, made⟩
      cases setting <;> simp_all [Setting.latex?]
    · rintro ⟨rfl, there⟩
      exact ⟨.latex, there, rfl⟩
  rw [single_eq_some_iff, pairwise_filterMap_false, mem, List.eq_nil_iff_forall_not_mem]
  cases value <;> simp [mem]

theorem ofSettings_eq_some {settings : List Setting} {o : Options} :
    Options.ofSettings settings = some o ↔
      single "A ^ B" (settings.filterMap Setting.expression?) = some o.expression ∧
      single .table (settings.filterMap Setting.format?) = some o.format ∧
      single false (settings.filterMap Setting.latex?) = some o.latex ∧
      single 10 (settings.filterMap Setting.maxVariables?) = some o.maxVariables := by
  simp only [Options.ofSettings, bind, Option.bind_eq_some_iff]
  constructor
  · rintro ⟨_, expression, _, format, _, latex, _, maxVariables, ⟨⟩⟩
    exact ⟨expression, format, latex, maxVariables⟩
  · rintro ⟨expression, format, latex, maxVariables⟩
    exact ⟨_, expression, _, format, _, latex, _, maxVariables, rfl⟩

theorem ofSettings_eq_some_iff {settings : List Setting} {o : Options} :
    Options.ofSettings settings = some o ↔ o.MadeBy settings := by
  rw [ofSettings_eq_some, single_filterMap_eq_some_iff Setting.expression?_eq_some,
    single_filterMap_eq_some_iff Setting.format?_eq_some, single_latex_eq_some_iff,
    single_filterMap_eq_some_iff Setting.maxVariables?_eq_some]
  constructor
  · rintro ⟨⟨once, expression⟩, ⟨once', format⟩, ⟨once'', latex⟩, once''', maxVariables⟩
    exact ⟨once_iff.2 ⟨once, once', once'', once'''⟩, expression, format, latex, maxVariables⟩
  · rintro ⟨once, expression, format, latex, maxVariables⟩
    obtain ⟨once, once', once'', once'''⟩ := once_iff.1 once
    exact ⟨⟨once, expression⟩, ⟨once', format⟩, ⟨once'', latex⟩, once''', maxVariables⟩

/-- The same settings in another order, and `-v` any number of times more. -/
theorem ofSettings_eq_of_perm {settings settings' added : List Setting}
    (verbose : ∀ setting ∈ added, setting = .verbose) (perm : settings'.Perm (settings ++ added)) :
    Options.ofSettings settings' = Options.ofSettings settings := by
  have entries {α : Type} (entry : Setting → Option α) (silent : entry .verbose = none) :
      (settings'.filterMap entry).Perm (settings.filterMap entry) := by
    have none : added.filterMap entry = [] := by
      refine List.filterMap_eq_nil_iff.2 fun setting mem => ?_
      rw [verbose setting mem, silent]
    simpa [none] using perm.filterMap entry
  refine Option.ext fun o => ?_
  rw [ofSettings_eq_some, ofSettings_eq_some, single_perm (entries Setting.expression? rfl),
    single_perm (entries Setting.format? rfl), single_perm (entries Setting.latex? rfl),
    single_perm (entries Setting.maxVariables? rfl)]

end Propositional.CommandLine

import SealedEnvelope.CommandLine.Arguments

/-!
# `SealedEnvelope.Proofs.CommandLine.Arguments`: settings among operands

A command line is read one word or two at a time. `Lists` says without a reader how it was put
together: out of settings, each of which is a flag and the word after it, and out of operands, where
both keep their order and nothing is said of how they are mixed. The word after a flag may be
anything, a flag too. An operand may not (`IsPlain`), because it would be read as one.

Main statements:

* `Arguments.exists_read_of_lists`: such a command line is read as the settings and the operands;
* `Gives.exists_read`: so it is, in whatever order the settings are given.
-/

set_option autoImplicit false

namespace SealedEnvelope.CommandLine

/-- Whether an argument is read as what it is: it does not begin with two hyphens and is no short
flag. -/
def IsPlain (argument : String) : Prop :=
  ¬ ['-', '-'] <+: argument.toList ∧ argument ∉ ["-p", "-s", "-P", "-k"]

instance (argument : String) : Decidable (IsPlain argument) := inferInstanceAs (Decidable (_ ∧ _))

/-- Whether arguments are some settings, each of them a flag in its long form or its short one and
then its value, and some operands anywhere among them. -/
inductive Lists : List (Setting × String) → List String → List String → Prop
  | nil : Lists [] [] []
  | setting {settings : List (Setting × String)} {operands arguments : List String}
      (setting : Setting) (value : String) {flag : String}
      (hflag : flag = setting.flag ∨ flag = setting.shortFlag)
      (hrest : Lists settings operands arguments) :
      Lists ((setting, value) :: settings) operands (flag :: value :: arguments)
  | operand {settings : List (Setting × String)} {operands arguments : List String}
      (operand : String) (hrest : Lists settings operands arguments) :
      Lists settings (operand :: operands) (operand :: arguments)

/-- Whether arguments give each of some settings once, in any order, and some operands. -/
def Gives (settings : List (Setting × String)) (operands arguments : List String) : Prop :=
  ∃ given : List (Setting × String), given.Perm settings ∧ Lists given operands arguments

/-! ## One argument -/

namespace Setting

/-- Either flag of a setting is that of no other one. -/
theorem ofFlag?_of_flag {setting : Setting} {flag : String}
    (h : flag = setting.flag ∨ flag = setting.shortFlag) : ofFlag? flag = some setting := by
  rcases h with rfl | rfl
  · cases setting <;> decide
  · cases setting <;> decide

/-- Every flag begins with two hyphens or is a short one. -/
theorem not_isPlain_flag (setting : Setting) :
    ¬ IsPlain setting.flag ∧ ¬ IsPlain setting.shortFlag := by
  cases setting <;> decide

theorem ofFlag?_of_isPlain {argument : String} (h : IsPlain argument) : ofFlag? argument = none := by
  refine List.find?_eq_none.2 fun setting _ hflag => ?_
  simp only [Bool.or_eq_true, beq_iff_eq] at hflag
  rcases hflag with rfl | rfl
  · exact setting.not_isPlain_flag.1 h
  · exact setting.not_isPlain_flag.2 h

end Setting

namespace IsPlain

variable {argument : String}

theorem ne_skipVerifyFlag (h : IsPlain argument) : argument ≠ Arguments.skipVerifyFlag := by
  rintro rfl
  exact absurd h (by decide)

theorem not_isOption (h : IsPlain argument) : ¬ Arguments.isOption argument = true := by
  rw [Arguments.isOption, List.isPrefixOf_iff_prefix]
  exact h.1

/-- What has no hyphen in it is plain. -/
theorem of_not_mem (h : '-' ∉ argument.toList) : IsPlain argument := by
  refine ⟨fun hbegins => h (hbegins.subset List.mem_cons_self), fun hflag => ?_⟩
  have hhyphen : ∀ flag ∈ ["-p", "-s", "-P", "-k"], '-' ∈ flag.toList := by decide
  exact h (hhyphen argument hflag)

end IsPlain

/-! ## All of them -/

/-- Whether what was read is some settings and some operands, and nothing else. -/
structure Arguments.Holds (arguments : Arguments) (settings : List (Setting × String))
    (operands : List String) : Prop where
  operands_eq : arguments.operands = operands
  verifies : arguments.skipVerify = false
  given : ∀ setting value, (setting, value) ∈ settings → arguments.value? setting = some value
  notGiven : ∀ setting, setting ∉ settings.map Prod.fst → arguments.value? setting = none

namespace Arguments

theorem read_setting {setting : Setting} {flag : String}
    (h : flag = setting.flag ∨ flag = setting.shortFlag) (value : String) (rest : List String) :
    read (flag :: value :: rest) = (read rest).map (·.precededBy setting value) := by
  rw [read.eq_def]
  simp only [Setting.ofFlag?_of_flag h]

theorem read_operand {operand : String} (h : IsPlain operand) (rest : List String) :
    read (operand :: rest)
      = (read rest).map fun read => { read with operands := operand :: read.operands } := by
  rw [read.eq_def]
  simp only [Setting.ofFlag?_of_isPlain h, if_neg h.ne_skipVerifyFlag, if_neg h.not_isOption]

/-- A setting that is not given after it has the value in front. -/
theorem Holds.precededBy {arguments : Arguments} {settings : List (Setting × String)}
    {operands : List String} (h : arguments.Holds settings operands) {setting : Setting}
    (hnew : setting ∉ settings.map Prod.fst) (value : String) :
    (arguments.precededBy setting value).Holds ((setting, value) :: settings) operands where
  operands_eq := h.operands_eq
  verifies := h.verifies
  given := by
    intro other otherValue hmem
    rcases List.mem_cons.1 hmem with heq | hlater
    · obtain ⟨rfl, rfl⟩ := Prod.mk.inj heq
      simp [Arguments.precededBy, h.notGiven other hnew]
    · have hne : other ≠ setting := by
        rintro rfl
        exact hnew (List.mem_map_of_mem (f := Prod.fst) hlater)
      simp [Arguments.precededBy, hne, h.given other otherValue hlater]
  notGiven := by
    intro other hother
    rw [List.map_cons, List.mem_cons, not_or] at hother
    simp [Arguments.precededBy, hother.1, h.notGiven other hother.2]

/-- Settings and plain operands are read as what they are, if no setting is given twice. -/
theorem exists_read_of_lists {settings : List (Setting × String)} {operands arguments : List String}
    (h : Lists settings operands arguments) (honce : (settings.map Prod.fst).Nodup)
    (hplain : ∀ operand ∈ operands, IsPlain operand) :
    ∃ result, read arguments = .ok result ∧ result.Holds settings operands := by
  induction h with
  | nil =>
    exact ⟨{}, by rw [read], { operands_eq := rfl, verifies := rfl, given := nofun,
                               notGiven := fun _ _ => rfl }⟩
  | setting setting value hflag hrest ih =>
    rw [List.map_cons, List.nodup_cons] at honce
    obtain ⟨result, hread, hholds⟩ := ih honce.2 hplain
    refine ⟨result.precededBy setting value, ?_, hholds.precededBy honce.1 value⟩
    rw [read_setting hflag, hread]
    rfl
  | operand operand hrest ih =>
    rw [List.forall_mem_cons] at hplain
    obtain ⟨result, hread, hholds⟩ := ih honce hplain.2
    refine ⟨{ result with operands := operand :: result.operands }, ?_, ?_⟩
    · rw [read_operand hplain.1, hread]
      rfl
    · exact { operands_eq := congrArg (operand :: ·) hholds.operands_eq, verifies := hholds.verifies,
              given := hholds.given, notGiven := hholds.notGiven }

end Arguments

/-- The order in which settings are given does not matter. -/
theorem Gives.exists_read {settings : List (Setting × String)} {operands arguments : List String}
    (h : Gives settings operands arguments) (honce : (settings.map Prod.fst).Nodup)
    (hplain : ∀ operand ∈ operands, IsPlain operand) :
    ∃ result, Arguments.read arguments = .ok result ∧ result.Holds settings operands := by
  obtain ⟨given, hperm, hlists⟩ := h
  obtain ⟨result, hread, hholds⟩ :=
    Arguments.exists_read_of_lists hlists ((hperm.map Prod.fst).nodup_iff.2 honce) hplain
  refine ⟨result, hread, { operands_eq := hholds.operands_eq, verifies := hholds.verifies,
                           given := fun setting value hmem => ?_,
                           notGiven := fun setting hnone => ?_ }⟩
  · exact hholds.given setting value (hperm.mem_iff.2 hmem)
  · exact hholds.notGiven setting fun hmem => hnone ((hperm.map Prod.fst).mem_iff.1 hmem)

end SealedEnvelope.CommandLine

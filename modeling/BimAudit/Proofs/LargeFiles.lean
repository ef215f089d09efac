import BimAudit.CommandLine.Run
import BimAudit.Files.Folder
import BimAudit.Proofs.Numerals

/-!
# From which size on models are large

The command line may say from how many mebibytes on a model is large. The configuration holds bytes,
as a word of 64 bits. So the numbers from `2 ^ 44` on, which the command line accepts like all
words, have no number of bytes, and the program breaks down over them. All smaller ones mean what
they say.

* `Arguments.Sets`: the arguments set a number of mebibytes. `adjust?_of_sets`: what the
  configuration is then.
* `hasLarge_iff`: whether some models are large. `hasLarge_of_le`: a larger size makes no more of
  them large.
* `largeFiles_of_sets`: **the numbers that mean what they say, and those that cannot be used.**
  `exists_mebibytes_overflow`: a run that breaks down.
-/

namespace BimAudit.CommandLine

open Session (Config ModelSource)

/-! ### Arguments -/

namespace Arguments

variable {a : Arguments}

/-- The arguments set the number of mebibytes from which on a model is large. -/
def Sets (a : Arguments) (n : Nat) : Prop :=
  ∃ v, a.value? .largeFileMb = some v ∧ Text.word? v.toList = some n

theorem lt_of_sets {n : Nat} (h : a.Sets n) : n < Text.wordLimit := by
  obtain ⟨v, -, hv⟩ := h
  have hdigits : ∀ s, Text.wordDigits? s = some n → n < Text.wordLimit := by
    intro s hs
    unfold Text.wordDigits? at hs
    exact of_decide_eq_true (Option.filter_eq_some_iff.1 hs).2
  unfold Text.word? at hv
  split at hv
  · exact hdigits _ hv
  · exact hdigits _ hv

theorem isOption_digits (n : Nat) : isOption (String.ofList (Nat.toDigits 10 n)) = false := by
  have hdash : Text.startsWith "-" (String.ofList (Nat.toDigits 10 n)) = false := by
    unfold Text.startsWith
    rw [String.toList_ofList (l := Nat.toDigits 10 n), Bool.eq_false_iff]
    intro hprefix
    obtain ⟨ds, hds⟩ := List.isPrefixOf_iff_prefix.1 hprefix
    have hmem : '-' ∈ Nat.toDigits 10 n := by
      rw [← hds]
      exact List.mem_append_left ds (by decide)
    exact absurd (Text.isDigit_of_mem_toDigits hmem) (by decide)
  unfold isOption
  rw [hdash, Bool.false_and]

/-- The option and its value as two arguments. -/
theorem parse_largeFileMb (v : String) :
    parse ["--large-file-mb", v] =
      if isOption v then .error (.misuse (.missingValue .largeFileMb))
      else addValue {} .largeFileMb v := by
  have hdone : ∀ x : Except Detour Arguments, (do parseFrom (← x) []) = x := by
    intro x
    cases x <;> rfl
  rw [← hdone (addValue {} .largeFileMb v)]
  rfl

/-- Every word of 64 bits can be set. -/
theorem exists_parse_sets {n : Nat} (h : n < Text.wordLimit) :
    ∃ l a, parse l = .ok a ∧ a.Sets n := by
  let v := String.ofList (Nat.toDigits 10 n)
  have hword : Text.word? v.toList = some n := by
    rw [String.toList_ofList]
    exact Text.word?_toDigits h
  have hadd : addValue {} .largeFileMb v = .ok ⟨[], [(.largeFileMb, v)]⟩ := by
    unfold addValue Setting.accepts
    rw [if_pos rfl, hword]
    rfl
  refine ⟨["--large-file-mb", v], ⟨[], [(.largeFileMb, v)]⟩, ?_, v, rfl, hword⟩
  rw [parse_largeFileMb, isOption_digits, hadd]
  rfl

end Arguments

/-! ### Sizes -/

theorem wordLimit_eq : Text.wordLimit = 2 ^ 64 := rfl

/-- A number of mebibytes below `2 ^ 44` is a number of bytes below `2 ^ 64`, and no other is. -/
theorem mebibytes?_eq (n : Nat) :
    mebibytes? n = if n < 2 ^ 44 then some (n * 2 ^ 20) else none := by
  have hiff : n * (1024 * 1024) < Text.wordLimit ↔ n < 2 ^ 44 := by
    rw [wordLimit_eq]
    omega
  unfold mebibytes?
  simp only [hiff]
  rfl

/-- **The configuration for a number of mebibytes**: nothing else in it changes. -/
theorem adjust?_of_sets {a : Arguments} {n : Nat} (h : a.Sets n) (c : Config) :
    adjust? a c = if n < 2 ^ 44 then some { c with largeFileBytes := n * 2 ^ 20 } else none := by
  obtain ⟨v, hv, hn⟩ := h
  unfold adjust?
  rw [hv, Option.bind_some, hn]
  simp only [mebibytes?_eq]
  split <;> rfl

/-- Some of the models are large, so they are audited one after the other. -/
def HasLarge (c : Config) (files : List ModelSource) : Prop :=
  ({ config := c } : Session).chooseStrategy files = .sequentialLarge

theorem hasLarge_iff {c : Config} {files : List ModelSource} :
    HasLarge c files ↔ ∃ f ∈ files, c.largeFileBytes ≤ f.size := by
  unfold HasLarge Session.chooseStrategy Session.Strategy.ofSizes
  have hany : ((files.map (·.size)).any fun size => decide (c.largeFileBytes ≤ size)) = true ↔
      ∃ f ∈ files, c.largeFileBytes ≤ f.size := by
    simp
  rw [← hany]
  split
  case isTrue h => exact iff_of_true rfl h
  case isFalse h =>
    refine iff_of_false (fun heq => ?_) h
    split at heq <;> cases heq

/-- A larger size makes no more models large. -/
theorem hasLarge_of_le {c d : Config} {files : List ModelSource}
    (hle : c.largeFileBytes ≤ d.largeFileBytes) (h : HasLarge d files) : HasLarge c files := by
  obtain ⟨f, hf, hsize⟩ := hasLarge_iff.1 h
  exact hasLarge_iff.2 ⟨f, hf, Nat.le_trans hle hsize⟩

/-- **What the number of mebibytes does.** It is a word of 64 bits, and every such word can be set.
There is a configuration for it if and only if it is less than `2 ^ 44`. In this configuration a
model is large from `n * 2 ^ 20` bytes on, and this number is a word of 64 bits; the rest is as
before. So exactly the models of at least `n` mebibytes are large. A larger number that can be used
makes none large that is not large by a smaller one, and all smaller ones can be used too. -/
theorem largeFiles_of_sets (c : Config) :
    (∀ n, n < 2 ^ 64 → ∃ l a, Arguments.parse l = .ok a ∧ a.Sets n) ∧
    ∀ (a : Arguments) (n : Nat), a.Sets n →
      n < 2 ^ 64 ∧ (2 ^ 44 ≤ n → adjust? a c = none) ∧
      (n < 2 ^ 44 → n * 2 ^ 20 < 2 ^ 64 ∧
        ∃ d, adjust? a c = some d ∧ d = { c with largeFileBytes := n * 2 ^ 20 } ∧
          ∀ files, HasLarge d files ↔ ∃ f ∈ files, n * 2 ^ 20 ≤ f.size) ∧
      ∀ (b : Arguments) (m : Nat) (e : Config), b.Sets m → n ≤ m → adjust? b c = some e →
        ∃ d, adjust? a c = some d ∧ ∀ files, HasLarge e files → HasLarge d files := by
  refine ⟨fun n hn => Arguments.exists_parse_sets (wordLimit_eq ▸ hn), fun a n ha => ?_⟩
  have hadjust := adjust?_of_sets ha c
  refine ⟨wordLimit_eq ▸ Arguments.lt_of_sets ha, ?_, ?_, ?_⟩
  · intro hn
    exact hadjust.trans (if_neg (Nat.not_lt.2 hn))
  · intro hn
    refine ⟨by omega, _, hadjust.trans (if_pos hn), rfl, fun files => ?_⟩
    rw [hasLarge_iff]
  · intro b m e hb hnm he
    rw [adjust?_of_sets hb] at he
    split at he
    case isTrue hm =>
      cases he
      refine ⟨_, hadjust.trans (if_pos (Nat.lt_of_le_of_lt hnm hm)), fun files hlarge => ?_⟩
      exact hasLarge_of_le (Nat.mul_le_mul_right _ hnm) hlarge
    case isFalse => cases he

/-- With one mebibyte a model is large from `1048576` bytes on, and with two no more of them are. -/
theorem largeFiles_of_sets_one_and_two :
    ∃ a b d e, Arguments.parse ["--large-file-mb", "1"] = .ok a ∧
      Arguments.parse ["--large-file-mb=2"] = .ok b ∧ a.Sets 1 ∧ b.Sets 2 ∧
      adjust? a {} = some d ∧ adjust? b {} = some e ∧
      (∀ files, HasLarge d files ↔ ∃ f ∈ files, 1 * 2 ^ 20 ≤ f.size) ∧
      ∀ files, HasLarge e files → HasLarge d files := by
  have ha : Arguments.Sets ⟨[], [(.largeFileMb, "1")]⟩ 1 := ⟨"1", by decide, by decide⟩
  have hb : Arguments.Sets ⟨[], [(.largeFileMb, "2")]⟩ 2 := ⟨"2", by decide, by decide⟩
  obtain ⟨-, -, hone, hraise⟩ := (largeFiles_of_sets {}).2 _ _ ha
  obtain ⟨-, -, htwo, -⟩ := (largeFiles_of_sets {}).2 _ _ hb
  obtain ⟨-, d, hd, -, hlarge⟩ := hone (by decide)
  obtain ⟨-, e, he, -, -⟩ := htwo (by decide)
  obtain ⟨d', hd', hmore⟩ := hraise _ _ e hb (by decide) he
  cases hd.symm.trans hd'
  exact ⟨_, _, d, e, rfl, rfl, ha, hb, hd, he, hlarge, hmore⟩

/-- **A number that cannot be used**: `2 ^ 44` is a word and is accepted, but has no number of
bytes. There is no configuration then, and the program breaks down before it has read anything. -/
theorem exists_mebibytes_overflow :
    let arguments := ["a.ifc", "--ids", "r.ids", "--large-file-mb", "17592186044416"]
    let a : Arguments := ⟨["a.ifc"], [(.ids, "r.ids"), (.largeFileMb, "17592186044416")]⟩
    Arguments.parse arguments = .ok a ∧ a.Sets 17592186044416 ∧ 17592186044416 = 2 ^ 44 ∧
      adjust? a {} = none ∧
      ((run arguments : StateM Files.Folder _).run {}).1.2.exitCode = 101 := by
  intro arguments a
  have ha : a.Sets 17592186044416 := ⟨"17592186044416", by decide, by decide⟩
  have hnone : adjust? a {} = none := by
    rw [adjust?_of_sets ha]
    rfl
  exact ⟨rfl, ha, by decide, hnone, by decide +kernel⟩

end BimAudit.CommandLine

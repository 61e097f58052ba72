import Zap.Go.Std
import Zap.Zapcore.Level

/-!
# Zap.Zapcore.Entry — `Entry` and `EntryCaller`

The entry a `Core` is asked to `Check` and `Write`, and the caller's formatting that the
encoders fall back on (`EntryCaller.String`, `FullPath`, `TrimmedPath`).
-/

namespace Zap.Zapcore

open Go Go.Utf8 Go.Strconv

/-- `EntryCaller` -/
structure EntryCaller where
  defined : Bool
  pc : Nat
  file : List UInt8
  line : Int
  function : List UInt8

/-- `ec.FullPath()` -/
def EntryCaller.fullPath (ec : EntryCaller) : List UInt8 :=
  if !ec.defined then lit "undefined" else ec.file ++ [0x3A] ++ formatInt ec.line

/-- `ec.String()` -/
def EntryCaller.string (ec : EntryCaller) : List UInt8 := ec.fullPath

/-- `ec.TrimmedPath()`: the file's last two path elements. -/
def EntryCaller.trimmedPath (ec : EntryCaller) : List UInt8 :=
  if !ec.defined then lit "undefined" else
  match lastIndexByte ec.file 0x2F with
  | none => ec.fullPath
  | some idx =>
    match lastIndexByte (ec.file.take idx) 0x2F with
    | none => ec.fullPath
    | some idx => ec.file.drop (idx + 1) ++ [0x3A] ++ formatInt ec.line

/-- **`TrimmedPath` keeps the longest suffix of the file that holds at most one `/`**: the leaf
directory and the file name, then `:` and the line.  The part it drops is empty or ends in the
`/` that a longer suffix would add. -/
theorem trimmedPath_spec (ec : EntryCaller) (h : ec.defined = true) :
    ∃ pre kept, ec.file = pre ++ kept ∧ kept.count 0x2F ≤ 1 ∧
      (pre = [] ∨ pre.getLast? = some 0x2F ∧ kept.count 0x2F = 1) ∧
      ec.trimmedPath = kept ++ [0x3A] ++ formatInt ec.line := by
  have hfull : ec.fullPath = ec.file ++ [0x3A] ++ formatInt ec.line := by
    simp [EntryCaller.fullPath, h]
  unfold EntryCaller.trimmedPath
  rw [if_neg (by simp [h])]
  cases h1 : lastIndexByte ec.file 0x2F with
  | none =>
    -- no `/` at all: the whole path
    refine ⟨[], ec.file, rfl, ?_, Or.inl rfl, hfull⟩
    simp [List.count_eq_zero_of_not_mem (lastIndexByte_eq_none h1)]
  | some idx =>
    obtain ⟨dir, rest, hfile, hidx, hrest⟩ := lastIndexByte_eq_some h1
    have htake : ec.file.take idx = dir := by rw [hfile, List.take_left' hidx]
    dsimp only
    rw [htake]
    cases h2 : lastIndexByte dir 0x2F with
    | none =>
      -- one `/`: the whole path again
      refine ⟨[], ec.file, rfl, ?_, Or.inl rfl, hfull⟩
      simp [hfile, List.count_eq_zero_of_not_mem (lastIndexByte_eq_none h2),
        List.count_eq_zero_of_not_mem hrest]
    | some j =>
      -- two or more: keep what follows the last `/` of the directory part
      obtain ⟨top, leaf, hdir, hj, hleaf⟩ := lastIndexByte_eq_some h2
      have hdrop : ec.file.drop (j + 1) = leaf ++ 0x2F :: rest := by
        rw [hfile, hdir, ← hj]
        simp
      refine ⟨top ++ [0x2F], leaf ++ 0x2F :: rest, by simp [hfile, hdir], ?_, ?_,
        by dsimp only; rw [hdrop]⟩
      · simp [List.count_eq_zero_of_not_mem hleaf, List.count_eq_zero_of_not_mem hrest]
      · exact Or.inr ⟨by simp, by simp [List.count_eq_zero_of_not_mem hleaf,
          List.count_eq_zero_of_not_mem hrest]⟩

theorem trimmedPath_spec_nested :
    (⟨true, 0, lit "zap/zapcore/entry.go", 7, []⟩ : EntryCaller).defined = true ∧
    ∃ pre kept, (⟨true, 0, lit "zap/zapcore/entry.go", 7, []⟩ : EntryCaller).file = pre ++ kept ∧
      kept.count 0x2F ≤ 1 ∧ (pre = [] ∨ pre.getLast? = some 0x2F ∧ kept.count 0x2F = 1) ∧
      (⟨true, 0, lit "zap/zapcore/entry.go", 7, []⟩ : EntryCaller).trimmedPath =
        kept ++ [0x3A] ++ formatInt 7 :=
  ⟨rfl, trimmedPath_spec ⟨true, 0, lit "zap/zapcore/entry.go", 7, []⟩ rfl⟩

/-- `Entry` -/
structure Entry where
  level : Level
  time : Time
  loggerName : List UInt8
  message : List UInt8
  caller : EntryCaller
  stack : List UInt8

end Zap.Zapcore

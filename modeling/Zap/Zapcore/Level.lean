import Zap.Go.Strconv
import Zap.Go.Strings

/-!
# Zap.Zapcore.Level — logging levels, `LevelEnabler` and `LevelOf`

A `Level` is Go's `int8`; the named levels run from `DebugLevel = -1` to `FatalLevel = 5`.
`LevelOf` asks an enabler for its `Level()` when it has that method and otherwise scans
`[_minLevel, _maxLevel]` for the least level it enables.

* `LeastEnabled e l`: `l` is the least level of `[DebugLevel, FatalLevel]` that `e` enables, or
  `InvalidLevel` when there is none; this is what `LevelOf` is documented to return.
* `scanLevels_leastEnabled`: the scan computes it.
* `levelOf_leastEnabled`: so does `LevelOf` of an enabler whose own `Level()` is right
  (`LevelEnabler.Exact`), a `Level` among them.
* `unmarshalText_round_trip`: `UnmarshalText` reads back the seven level names, in lower or
  capital case, and refuses the `Level(n)` of any other level.
-/

namespace Zap.Zapcore

open Go.Utf8 Go.Strconv Go.Strings

/-- `Level` -/
abbrev Level := Int8

def debugLevel : Level := -1
def infoLevel : Level := 0
def warnLevel : Level := 1
def errorLevel : Level := 2
def dPanicLevel : Level := 3
def panicLevel : Level := 4
def fatalLevel : Level := 5

/-- `_minLevel` -/
def minLevel : Level := debugLevel
/-- `_maxLevel` -/
def maxLevel : Level := fatalLevel
/-- `InvalidLevel` -/
def invalidLevel : Level := maxLevel + 1

/-- `Level.String()` -/
def Level.string (l : Level) : List UInt8 :=
  if l = debugLevel then lit "debug"
  else if l = infoLevel then lit "info"
  else if l = warnLevel then lit "warn"
  else if l = errorLevel then lit "error"
  else if l = dPanicLevel then lit "dpanic"
  else if l = panicLevel then lit "panic"
  else if l = fatalLevel then lit "fatal"
  else lit "Level(" ++ formatInt l.toInt ++ lit ")"

/-- `Level.CapitalString()` -/
def Level.capitalString (l : Level) : List UInt8 :=
  if l = debugLevel then lit "DEBUG"
  else if l = infoLevel then lit "INFO"
  else if l = warnLevel then lit "WARN"
  else if l = errorLevel then lit "ERROR"
  else if l = dPanicLevel then lit "DPANIC"
  else if l = panicLevel then lit "PANIC"
  else if l = fatalLevel then lit "FATAL"
  else lit "LEVEL(" ++ formatInt l.toInt ++ lit ")"

/-- `l.Enabled(lvl)` -/
def Level.enabled (l lvl : Level) : Bool := decide (l ≤ lvl)

/-- A `LevelEnabler`: its `Enabled` method, and the result of its `Level()` method when it
implements `leveledEnabler`. -/
structure LevelEnabler where
  enabled : Level → Bool
  level : Option Level

/-- A `Level` used as a `LevelEnabler`: it has no `Level()` method. -/
def Level.toEnabler (l : Level) : LevelEnabler := ⟨l.enabled, none⟩

/-- The levels `LevelOf`'s loop visits, `_minLevel` to `_maxLevel` in order. -/
def levels : List Level := [debugLevel, infoLevel, warnLevel, errorLevel, dPanicLevel, panicLevel,
  fatalLevel]

/-- The loop of `LevelOf`: the first level of `levels` that is enabled, else `InvalidLevel`. -/
def scanLevels (enabled : Level → Bool) : Level := (levels.find? enabled).getD invalidLevel

/-- `LevelOf(enab)` -/
def levelOf (enab : LevelEnabler) : Level :=
  match enab.level with
  | some l => l
  | none => scanLevels enab.enabled

/-! ## What `LevelOf` is documented to return -/

/-- `l` is the least level of `[DebugLevel, FatalLevel]` that `enabled` enables, or
`InvalidLevel` if it enables none of them. -/
def LeastEnabled (enabled : Level → Bool) (l : Level) : Prop :=
  (l ∈ levels ∧ enabled l = true ∧ ∀ l' ∈ levels, enabled l' = true → l ≤ l') ∨
    (l = invalidLevel ∧ ∀ l' ∈ levels, enabled l' = false)

theorem levels_sorted : levels.Pairwise (· < ·) := by decide

/-- In a sorted list, `find?` returns the least element that satisfies the predicate. -/
theorem find?_least {l : List Level} (hs : l.Pairwise (· < ·)) {p : Level → Bool} {x : Level}
    (h : l.find? p = some x) : x ∈ l ∧ p x = true ∧ ∀ y ∈ l, p y = true → x ≤ y := by
  induction l with
  | nil => simp at h
  | cons a l ih =>
    rw [List.pairwise_cons] at hs
    by_cases ha : p a = true
    · rw [List.find?_cons_of_pos ha, Option.some.injEq] at h
      subst h
      refine ⟨List.mem_cons_self, ha, fun y hy _ => ?_⟩
      rcases List.mem_cons.mp hy with rfl | hy
      · exact Int8.le_refl _
      · exact Int8.le_of_lt (hs.1 y hy)
    · rw [List.find?_cons_of_neg ha] at h
      obtain ⟨hx, hpx, hmin⟩ := ih hs.2 h
      refine ⟨List.mem_cons_of_mem _ hx, hpx, fun y hy hpy => ?_⟩
      rcases List.mem_cons.mp hy with rfl | hy
      · exact absurd hpy ha
      · exact hmin y hy hpy

theorem scanLevels_leastEnabled (enabled : Level → Bool) :
    LeastEnabled enabled (scanLevels enabled) := by
  cases h : levels.find? enabled with
  | none =>
    right
    refine ⟨by rw [scanLevels, h]; rfl, fun l' hl' => ?_⟩
    simpa using List.find?_eq_none.mp h l' hl'
  | some x =>
    left
    rw [scanLevels, h]
    exact find?_least levels_sorted h

/-- The least enabled level is at or below every level of `levels` that is enabled. -/
theorem LeastEnabled.le {enabled : Level → Bool} {l l' : Level} (h : LeastEnabled enabled l)
    (hl' : l' ∈ levels) (he : enabled l' = true) : l ≤ l' := by
  rcases h with ⟨-, -, hmin⟩ | ⟨-, hnone⟩
  · exact hmin l' hl' he
  · rw [hnone l' hl'] at he
    exact absurd he Bool.false_ne_true

theorem le_maxLevel_of_mem {l : Level} (h : l ∈ levels) : l ≤ maxLevel := by
  simp only [levels, List.mem_cons, List.not_mem_nil, or_false] at h
  rcases h with rfl | rfl | rfl | rfl | rfl | rfl | rfl <;> decide

/-- The enabler's own `Level()`, where it has one, is the least level it enables. -/
def LevelEnabler.Exact (enab : LevelEnabler) : Prop :=
  ∀ l, enab.level = some l → LeastEnabled enab.enabled l

/-- A `Level` has no `Level()` method to be wrong. -/
theorem Level.toEnabler_exact (l : Level) : l.toEnabler.Exact := fun _ h => nomatch h

/-- `LevelOf` returns what it is documented to, unless the enabler's own `Level()` misreports. -/
theorem levelOf_leastEnabled {enab : LevelEnabler} (h : enab.Exact) :
    LeastEnabled enab.enabled (levelOf enab) := by
  cases hl : enab.level with
  | none =>
    rw [levelOf, hl]
    exact scanLevels_leastEnabled _
  | some l =>
    rw [levelOf, hl]
    exact h l hl

/-! ## Text: `MarshalText`, `UnmarshalText` and `ParseLevel` -/

/-- `l.MarshalText()` -/
def Level.marshalText (l : Level) : List UInt8 := l.string

/-- `l.unmarshalText(text)`: the level `text` names, if any; the empty text names `InfoLevel`. -/
def Level.unmarshalText (text : List UInt8) : Option Level :=
  if text = lit "debug" then some debugLevel
  else if text = lit "info" ∨ text = [] then some infoLevel
  else if text = lit "warn" ∨ text = lit "warning" then some warnLevel
  else if text = lit "error" then some errorLevel
  else if text = lit "dpanic" then some dPanicLevel
  else if text = lit "panic" then some panicLevel
  else if text = lit "fatal" then some fatalLevel
  else none

/-- Why `(*Level).UnmarshalText` fails. -/
inductive LevelError where
  /-- `errUnmarshalNilLevel` -/
  | nilLevel
  /-- `fmt.Errorf("unrecognized level: %q", text)` -/
  | unrecognized (text : List UInt8)
  deriving DecidableEq, Repr

/-- The error's text; `quote` is `fmt`'s `%q` of a byte slice. -/
def LevelError.text (quote : List UInt8 → List UInt8) : LevelError → List UInt8
  | .nilLevel => lit "can't unmarshal a nil *Level"
  | .unrecognized text => lit "unrecognized level: " ++ quote text

/-- `l.UnmarshalText(text)` through the pointer `l`, `none` for nil: the level that `text` names,
as it is or lowered by `bytes.ToLower`, which `*l` becomes; on an error `*l` is left as it was. -/
def Level.UnmarshalText (lowerCase : Nat → Nat) (l : Option Level) (text : List UInt8) :
    Except LevelError Level :=
  match l with
  | none => .error .nilLevel
  | some _ =>
    match Level.unmarshalText text with
    | some l => .ok l
    | none =>
      match Level.unmarshalText (toLower lowerCase text) with
      | some l => .ok l
      | none => .error (.unrecognized text)

/-- `ParseLevel(text)`: the level and the error; on an error the level is the zero `Level`,
`InfoLevel`. -/
def parseLevel (lowerCase : Nat → Nat) (text : List UInt8) : Level × Option LevelError :=
  match Level.UnmarshalText lowerCase (some infoLevel) text with
  | .ok l => (l, none)
  | .error e => (infoLevel, some e)

/-- A text whose first byte starts no level name names no level. -/
theorem unmarshalText_eq_none_of_head {text : List UInt8}
    (h : text.head? ∉ [some 0x64, some 0x69, none, some 0x77, some 0x65, some 0x70, some 0x66]) :
    Level.unmarshalText text = none := by
  unfold Level.unmarshalText
  split_ifs with h1 h2 h3 h4 h5 h6 h7
  · subst h1; exact absurd h (by decide)
  · rcases h2 with rfl | rfl <;> exact absurd h (by decide)
  · rcases h3 with rfl | rfl <;> exact absurd h (by decide)
  · subst h4; exact absurd h (by decide)
  · subst h5; exact absurd h (by decide)
  · subst h6; exact absurd h (by decide)
  · subst h7; exact absurd h (by decide)
  · rfl

theorem unmarshalText_string {l : Level} (hl : l ∈ levels) : Level.unmarshalText l.string = some l := by
  simp only [levels, List.mem_cons, List.not_mem_nil, or_false] at hl
  rcases hl with rfl | rfl | rfl | rfl | rfl | rfl | rfl <;> decide +kernel

/-- A named level's capital name is ASCII, names no level itself, and lowers to one that does. -/
theorem unmarshalText_capitalString {l : Level} (hl : l ∈ levels) :
    Level.unmarshalText l.capitalString = none ∧ (∀ c ∈ l.capitalString, c < 0x80) ∧
      Level.unmarshalText (l.capitalString.map asciiLower) = some l := by
  simp only [levels, List.mem_cons, List.not_mem_nil, or_false] at hl
  rcases hl with rfl | rfl | rfl | rfl | rfl | rfl | rfl <;> decide +kernel

/-- Every level a name stands for is one of the seven. -/
theorem unmarshalText_mem {text : List UInt8} {l : Level} (h : Level.unmarshalText text = some l) :
    l ∈ levels := by
  unfold Level.unmarshalText at h
  split_ifs at h <;> simp only [Option.some.injEq] at h <;> subst h <;> decide

/-- **`UnmarshalText` only ever yields one of the seven levels.** -/
theorem UnmarshalText_mem {lowerCase : Nat → Nat} {p : Option Level} {text : List UInt8} {l : Level}
    (h : Level.UnmarshalText lowerCase p text = .ok l) : l ∈ levels := by
  cases p with
  | none => cases h
  | some _ =>
    simp only [Level.UnmarshalText] at h
    cases h1 : Level.unmarshalText text with
    | some l' =>
      rw [h1] at h
      cases h
      exact unmarshalText_mem h1
    | none =>
      -- the text is retried in lower case
      rw [h1] at h
      cases h2 : Level.unmarshalText (toLower lowerCase text) with
      | some l' =>
        rw [h2] at h
        cases h
        exact unmarshalText_mem h2
      | none =>
        rw [h2] at h
        cases h

section Unmarshal

variable (lowerCase : Nat → Nat) (x : Level)

/-- A text starting with `L` is unrecognized: lowering only turns the `L` into `l`. -/
theorem UnmarshalText_of_head_L {rest : List UInt8} :
    Level.UnmarshalText lowerCase (some x) (0x4C :: rest) = .error (.unrecognized (0x4C :: rest)) := by
  obtain ⟨rest', hlow⟩ := @toLower_cons_ascii lowerCase _ (show (0x4C : UInt8) < 0x80 by decide) rest
  have hl : asciiLower 0x4C = 0x6C := by decide
  rw [Level.UnmarshalText, unmarshalText_eq_none_of_head (by simp), hlow, hl,
    unmarshalText_eq_none_of_head (by simp)]

/-- A level outside `[DebugLevel, FatalLevel]` prints as `Level(n)` and `LEVEL(n)`. -/
theorem string_of_not_mem {l : Level} (hl : l ∉ levels) :
    l.string = 0x4C :: (lit "evel(" ++ formatInt l.toInt ++ lit ")") ∧
      l.capitalString = 0x4C :: (lit "EVEL(" ++ formatInt l.toInt ++ lit ")") := by
  simp only [levels, List.mem_cons, List.not_mem_nil, or_false, not_or] at hl
  obtain ⟨h1, h2, h3, h4, h5, h6, h7⟩ := hl
  have hL : lit "Level(" = 0x4C :: lit "evel(" := by decide
  have hC : lit "LEVEL(" = 0x4C :: lit "EVEL(" := by decide
  simp only [Level.string, Level.capitalString, h1, h2, h3, h4, h5, h6, h7, if_false, hL, hC,
    List.cons_append, List.append_assoc, and_self]

/-- **`UnmarshalText` reads back what `MarshalText` and `CapitalString` write**: a named level
round-trips through either, whatever Unicode's case table; any other level prints as `Level(n)` or
`LEVEL(n)`, which is refused as unrecognized. -/
theorem unmarshalText_round_trip (l : Level) :
    Level.UnmarshalText lowerCase (some x) l.marshalText =
        (if l ∈ levels then .ok l else .error (.unrecognized l.marshalText)) ∧
      Level.UnmarshalText lowerCase (some x) l.capitalString =
        (if l ∈ levels then .ok l else .error (.unrecognized l.capitalString)) := by
  by_cases hl : l ∈ levels
  · obtain ⟨hc, hascii, hlow⟩ := unmarshalText_capitalString hl
    rw [if_pos hl, if_pos hl, Level.marshalText, Level.UnmarshalText, unmarshalText_string hl,
      Level.UnmarshalText, hc, toLower_of_ascii hascii, hlow]
    exact ⟨rfl, rfl⟩
  · obtain ⟨hs, hcs⟩ := string_of_not_mem hl
    rw [if_neg hl, if_neg hl, Level.marshalText, hs, hcs]
    exact ⟨UnmarshalText_of_head_L lowerCase x, UnmarshalText_of_head_L lowerCase x⟩

end Unmarshal

end Zap.Zapcore

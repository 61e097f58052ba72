import Zap.Field
import Zap.Zapcore.Core

/-!
# Zap.Exp.Zapslog — the `slog.Handler` of package `zapslog`

`Handler` turns each `slog.Attr` into a zap `Field` (`convertAttrToField`) and writes the fields
through its core.  `WithGroup` only records a group name; the pending groups are opened as
namespaces in front of the first field that is not `Skip`.

* `Go.Slog`: the `slog` values the handler reads: a `Value` by its `Kind`, `Attr` and `Record`.
* `convertValue`, `groupObject`: `convertAttrToField` and `groupObject.MarshalLogObject`, with the
  loop of `Resolve` fused into the conversion so that the recursion is structural.
* `attrFields_spec`: the loop of `Handle` and `WithAttrs` opens the pending groups exactly in
  front of the first field that is not `Skip`, and nowhere else.
* `slogStructure`: slog's rules for attributes and groups, as the key/value structure a handled
  record should give; `handle_emits_empty_group` is an input on which the fields the handler
  writes give another one.
-/

namespace Go.Slog

open Zap.Zapcore Go.Utf8

mutual

/-- A `slog.Value`, by its `Kind`.  A `KindAny` value carries what `v.Any()` returns, by the case
of the type switch of `zap.Any` it takes; a `KindLogValuer` value carries the name of its type
and the value its `LogValue()` returns. -/
inductive Value where
  | any (v : Zap.AnyValue)
  | bool (v : Bool)
  | duration (v : Int64)
  | float64 (v : UInt64)
  | int64 (v : Int64)
  | string (v : List UInt8)
  | time (v : Time)
  | uint64 (v : UInt64)
  | group (as : List Attr)
  | logValuer (typeName : List UInt8) (v : Value)

/-- `slog.Attr` -/
inductive Attr where
  | mk (key : List UInt8) (value : Value)

end

/-- `slog.Attr{}`: the empty key and the zero `Value`, whose `any` is nil. -/
def Attr.zero : Attr := .mk [] (.any (.reflected none))

/-- `maxLogValues` -/
def maxLogValues : Nat := 100

/-- The error `Resolve` returns when `LogValue` keeps returning `LogValuer`s; `orig` is the `%T`
of the value it started on. -/
def tooManyLogValues (orig : List UInt8) : GoError :=
  .basic (.ok (lit "LogValue called too many times on Value of type " ++ orig)) none

/-- `slog.LevelDebug`; a `slog.Level` is an `int`. -/
def levelDebug : Int := -4
/-- `slog.LevelInfo` -/
def levelInfo : Int := 0
/-- `slog.LevelWarn` -/
def levelWarn : Int := 4
/-- `slog.LevelError` -/
def levelError : Int := 8

/-- A `slog.Record`, with the attributes its `Attrs` method visits. -/
structure Record where
  time : Time
  message : List UInt8
  level : Int
  pc : Nat
  attrs : List Attr

end Go.Slog

namespace Zap.Zapslog

open Go Go.Slog Go.Utf8 Zapcore

/-! ## `convertAttrToField` -/

mutual

/-- `convertAttrToField(slog.Attr{Key: key, Value: v})`.  The loop of `Resolve` is fused in:
with `res = some (orig, n)`, `v` is the value the loop holds with `n` rounds left, started on
a value of type `orig`, and the conversion of what the loop returns follows. -/
def convertValue (key : List UInt8) : Option (List UInt8 × Nat) → Value → Field
  -- `Resolve` gave up: `AnyValue(err)`, which is never `slog.Attr{}`
  | some (orig, 0), _ => any key (.error (tooManyLogValues orig))
  | some (orig, n + 1), .logValuer _ w => convertValue key (some (orig, n)) w
  | none, .logValuer t w => convertValue key (some (t, maxLogValues - 1)) w
  -- `attr.Equal(slog.Attr{})`
  | _, .any (.reflected none) => if key = [] then .skip else any key (.reflected none)
  | _, .any a => any key a
  | _, .bool v => bool key v
  | _, .duration v => duration key v
  | _, .float64 v => float64 key v
  | _, .int64 v => int64 key v
  | _, .string v => string key v
  | _, .time v => time key v
  | _, .uint64 v => uint64 key v
  | _, .group as =>
    if key = [] then .inlineMarshaler (groupObject as) else .objectMarshaler key (groupObject as)

/-- `groupObject(as).MarshalLogObject`: each attribute's field added in turn. -/
def groupObject : List Attr → ObjectMarshaler
  | [] => .done none
  | .mk key v :: as => (convertValue key none v).addTo.bind fun _ => groupObject as

end

/-- `convertAttrToField(attr)` -/
def convertAttrToField : Attr → Field
  | .mk key v => convertValue key none v

/-- `convertSlogLevel(l)` -/
def convertSlogLevel (l : Int) : Level :=
  if l ≥ levelError then errorLevel
  else if l ≥ levelWarn then warnLevel
  else if l ≥ levelInfo then infoLevel
  else debugLevel

/-- `f != zap.Skip()`: only `Skip` makes a `SkipType` field. -/
def isSkip : Field → Bool
  | .skip => true
  | _ => false

theorem debugLevel_le_convertSlogLevel (l : Int) : debugLevel ≤ convertSlogLevel l := by
  unfold convertSlogLevel
  split_ifs <;> decide

/-! ## `Handler` -/

/-- `Handler` -/
structure Handler (E : Type) where
  core : Core E
  name : List UInt8
  addCaller : Bool
  addStackAt : Int
  callerSkip : Int
  groups : List (List UInt8)

variable {E : Type}

/-- `NewHandler(core)` before its options. -/
def newHandler (core : Core E) : Handler E where
  core := core
  name := []
  addCaller := false
  addStackAt := levelError
  callerSkip := 0
  groups := []

/-- `WithName(name)` -/
def Handler.withName (h : Handler E) (name : List UInt8) : Handler E := { h with name := name }

/-- `WithCaller(enabled)` -/
def Handler.withCaller (h : Handler E) (enabled : Bool) : Handler E := { h with addCaller := enabled }

/-- `WithCallerSkip(skip)` -/
def Handler.withCallerSkip (h : Handler E) (skip : Int) : Handler E :=
  { h with callerSkip := h.callerSkip + skip }

/-- `AddStacktraceAt(lvl)` -/
def Handler.addStacktraceAt (h : Handler E) (lvl : Int) : Handler E := { h with addStackAt := lvl }

/-- `h.Enabled(ctx, level)` -/
def Handler.enabled (h : Handler E) (level : Int) : Bool := h.core.enabled (convertSlogLevel level)

/-- `h.appendGroups(fields)`: a `Namespace` for each pending group. -/
def appendGroups (groups : List (List UInt8)) (fields : List Field) : List Field :=
  fields ++ groups.map Field.namespace

/-- One round of the loop over the attributes in `Handle` and `WithAttrs`, on the fields so far
and `addedNamespace`. -/
def attrStep (groups : List (List UInt8)) (acc : List Field × Bool) (attr : Attr) :
    List Field × Bool :=
  let f := convertAttrToField attr
  if !acc.2 && !groups.isEmpty && !isSkip f then (appendGroups groups acc.1 ++ [f], true)
  else (acc.1 ++ [f], acc.2)

/-- The loop over the attributes in `Handle` and `WithAttrs`: the fields and `addedNamespace`. -/
def attrFields (groups : List (List UInt8)) (attrs : List Attr) : List Field × Bool :=
  attrs.foldl (attrStep groups) ([], false)

@[simp] theorem attrStep_added (groups : List (List UInt8)) (fs : List Field) (a : Attr) :
    attrStep groups (fs, true) a = (fs ++ [convertAttrToField a], true) := by
  simp [attrStep]

theorem foldl_attrStep_added (groups : List (List UInt8)) (fs : List Field) (attrs : List Attr) :
    attrs.foldl (attrStep groups) (fs, true) = (fs ++ attrs.map convertAttrToField, true) := by
  induction attrs generalizing fs with
  | nil => simp
  | cons a as ih => simp [ih]

/-- The loop before the groups are opened: either they never are, and every field is kept in
order, or they are opened right before the first field that is not `Skip`. -/
theorem foldl_attrStep_pending (groups : List (List UInt8)) (attrs : List Attr) (fs : List Field) :
    (attrs.foldl (attrStep groups) (fs, false) = (fs ++ attrs.map convertAttrToField, false) ∧
      (groups = [] ∨ ∀ a ∈ attrs, isSkip (convertAttrToField a) = true)) ∨
    (groups ≠ [] ∧ ∃ pre a post, attrs = pre ++ a :: post ∧
      (∀ b ∈ pre, isSkip (convertAttrToField b) = true) ∧ isSkip (convertAttrToField a) = false ∧
      attrs.foldl (attrStep groups) (fs, false) =
        (appendGroups groups (fs ++ pre.map convertAttrToField) ++
          (a :: post).map convertAttrToField, true)) := by
  induction attrs generalizing fs with
  | nil => simp
  | cons a as ih =>
    rw [List.foldl_cons]
    by_cases hopen : groups ≠ [] ∧ isSkip (convertAttrToField a) = false
    · -- the groups open here, and the rest of the loop only appends
      have hstep : attrStep groups (fs, false) a =
          (appendGroups groups fs ++ [convertAttrToField a], true) := by
        simp [attrStep, hopen.1, hopen.2]
      right
      refine ⟨hopen.1, [], a, as, rfl, by simp, hopen.2, ?_⟩
      rw [hstep, foldl_attrStep_added]
      simp
    · have hstep : attrStep groups (fs, false) a = (fs ++ [convertAttrToField a], false) := by
        by_cases hg : groups = []
        · simp [attrStep, hg]
        · have hs : isSkip (convertAttrToField a) = true := by simpa [hg] using hopen
          simp [attrStep, hs]
      -- `a` is `Skip` unless there are no groups
      have hskip : groups ≠ [] → isSkip (convertAttrToField a) = true := fun hg => by
        simpa [hg] using hopen
      rw [hstep]
      rcases ih (fs ++ [convertAttrToField a]) with ⟨hrun, hnone⟩ | ⟨hg, pre, b, post, rfl, hpre, hb, hrun⟩
      · left
        refine ⟨by simp [hrun], ?_⟩
        by_cases hg : groups = []
        · exact .inl hg
        · rcases hnone with hg' | hall
          · exact absurd hg' hg
          · exact .inr fun c hc => by
              rcases List.mem_cons.mp hc with rfl | hc
              · exact hskip hg
              · exact hall c hc
      · right
        refine ⟨hg, a :: pre, b, post, rfl, ?_, hb, by simp [hrun]⟩
        intro c hc
        rcases List.mem_cons.mp hc with rfl | hc
        · exact hskip hg
        · exact hpre c hc

/-- The loop of `Handle` and `WithAttrs` opens the pending groups exactly in front of the first
field that is not `Skip`, and nowhere when there is none. -/
theorem attrFields_spec (groups : List (List UInt8)) (attrs : List Attr) :
    (attrFields groups attrs = (attrs.map convertAttrToField, false) ∧
      (groups = [] ∨ ∀ a ∈ attrs, isSkip (convertAttrToField a) = true)) ∨
    (groups ≠ [] ∧ ∃ pre a post, attrs = pre ++ a :: post ∧
      (∀ b ∈ pre, isSkip (convertAttrToField b) = true) ∧ isSkip (convertAttrToField a) = false ∧
      attrFields groups attrs =
        (appendGroups groups (pre.map convertAttrToField) ++ (a :: post).map convertAttrToField,
          true)) := by
  simpa [attrFields] using foldl_attrStep_pending groups attrs []

/-- What `Handle` reads from the runtime: the frame `runtime.CallersFrames` gives for
`record.PC` (its `pc` is 0 when there is none), and `stacktrace.Take(skip)`. -/
structure HandleRuntime where
  frame : EntryCaller
  take : Int → List UInt8

/-- The entry `Handle` checks. -/
def Handler.entry (h : Handler E) (r : Record) : Entry where
  level := convertSlogLevel r.level
  time := r.time
  message := r.message
  loggerName := h.name
  caller := ⟨false, 0, [], 0, []⟩
  stack := []

/-- The caller and the stack `Handle` puts on an entry it will write. -/
def Handler.annotate (h : Handler E) (r : Record) (rt : HandleRuntime) (ce : CheckedEntry E) :
    CheckedEntry E :=
  let ce := if h.addCaller && r.pc ≠ 0 && rt.frame.pc ≠ 0 then
      { ce with entry := { ce.entry with caller := { rt.frame with defined := true } } }
    else ce
  if r.level ≥ h.addStackAt then
    { ce with entry := { ce.entry with stack := rt.take (3 + h.callerSkip) } }
  else ce

/-- The fields `Handle` writes for a record with attributes `attrs`. -/
def Handler.handleFields (h : Handler E) (attrs : List Attr) : List Field :=
  (attrFields h.groups attrs).1

section Handle

variable (ops : Encoder E) (merr : Multierr (List UInt8))

/-- `h.Handle(ctx, record)`: the events of the check and of the write. -/
def Handler.handle (h : Handler E) (r : Record) (rt : HandleRuntime) (st : CheckState) :
    List Event :=
  match h.core.check ops [] (h.entry r) none st with
  | (none, st) => st.events
  | (some ce, st) =>
    st.events ++ CheckedEntry.write ops merr (some (h.annotate r rt ce)) (h.handleFields r.attrs)

/-- `Handle` writes `handleFields` of the record's attributes when the core takes the entry. -/
theorem Handler.handle_of_check {h : Handler E} {r : Record} {st st' : CheckState}
    {ce : CheckedEntry E} (hc : h.core.check ops [] (h.entry r) none st = (some ce, st'))
    (rt : HandleRuntime) :
    h.handle ops merr r rt st =
      st'.events ++ CheckedEntry.write ops merr (some (h.annotate r rt ce)) (h.handleFields r.attrs) := by
  rw [Handler.handle, hc]

/-- `h.WithAttrs(attrs)`: the groups are cleared once they have been opened. -/
def Handler.withAttrs (h : Handler E) (attrs : List Attr) : Handler E :=
  let r := attrFields h.groups attrs
  { h with core := h.core.with ops r.1, groups := if r.2 then [] else h.groups }

end Handle

/-- `h.WithGroup(group)` -/
def Handler.withGroup (h : Handler E) (group : List UInt8) : Handler E :=
  { h with groups := h.groups ++ [group] }

/-- A call on a handler: `WithAttrs(as)` or `WithGroup(g)`. -/
inductive HandlerCall where
  | withAttrs (as : List Attr)
  | withGroup (g : List UInt8)

/-! ## slog's rules for attributes and groups

The structure a record should give under the rules of the `slog.Handler` contract: `LogValuer`s
resolved, `slog.Attr{}` dropped, a group with the empty key inlined, the attributes added after
`WithGroup(g1)`, ..., `WithGroup(gk)` under the path `g1/.../gk`, and a group that ends up with
no members omitted.  A single attribute that is none of these is what zap stores for it. -/

/-- `m[k] = v` for each member `(k, v)` of `ms` in turn. -/
def mapSetAll (m ms : List (List UInt8 × MapVal)) : List (List UInt8 × MapVal) :=
  ms.foldl (fun m kv => mapSet m kv.1 kv.2) m

section Reference

variable (std : GoStd)

mutual

/-- The members the attribute `{key, v}` puts into the object it is in; `res` as in
`convertValue`. -/
def slogMembers (key : List UInt8) : Option (List UInt8 × Nat) → Value →
    List (List UInt8 × MapVal)
  | some (orig, 0), _ => mapFields std [any key (.error (tooManyLogValues orig))]
  | some (orig, n + 1), .logValuer _ w => slogMembers key (some (orig, n)) w
  | none, .logValuer t w => slogMembers key (some (t, maxLogValues - 1)) w
  | _, .group as =>
    let ms := slogGroupMembers [] as
    if ms.isEmpty then [] else if key = [] then ms else [(key, .map ms)]
  | _, .any (.reflected none) => if key = [] then [] else mapFields std [any key (.reflected none)]
  | _, v => mapFields std [convertValue key none v]

/-- The members of a group with attributes `as`, put into `acc`. -/
def slogGroupMembers (acc : List (List UInt8 × MapVal)) : List Attr → List (List UInt8 × MapVal)
  | [] => acc
  | .mk key v :: as => slogGroupMembers (mapSetAll acc (slogMembers key none v)) as

end

/-- The map below `m[g]`, or a new one. -/
def subMap (m : List (List UInt8 × MapVal)) (g : List UInt8) : List (List UInt8 × MapVal) :=
  match mapGet m g with
  | some (.map sub) => sub
  | _ => []

/-- `m` with the members `ms` put at `path`; a group on the path is created only when there
is a member to put in it. -/
def insertAt : List (List UInt8) → List (List UInt8 × MapVal) → List (List UInt8 × MapVal) →
    List (List UInt8 × MapVal)
  | _, [], m => m
  | [], ms, m => mapSetAll m ms
  | g :: gs, ms, m => mapSet m g (.map (insertAt gs ms (subMap m g)))

/-- The structure slog's rules give for a record with attributes `rs` handled after `calls`,
starting from the members `m` and the group path `path`. -/
def slogStructure (path : List (List UInt8)) (m : List (List UInt8 × MapVal)) :
    List HandlerCall → List Attr → List (List UInt8 × MapVal)
  | [], rs => insertAt path (slogGroupMembers std [] rs) m
  | .withGroup g :: calls, rs => slogStructure (path ++ [g]) m calls rs
  | .withAttrs as :: calls, rs =>
    slogStructure path (insertAt path (slogGroupMembers std [] as) m) calls rs

/-- A group whose only attribute is `slog.Attr{}`: the handler writes it as an object with
no members, where slog's rules omit it. -/
theorem handle_emits_empty_group (ops : Encoder E) (merr : Multierr (List UInt8)) (enc : E)
    (out : WriteSyncer) (r : Record) (rt : HandleRuntime) (st : CheckState) :
    (∃ ce, (newHandler (newCore enc out debugLevel.toEnabler)).handle ops merr
        { r with attrs := [.mk (lit "g") (.group [Attr.zero])] } rt st =
      st.events ++ CheckedEntry.write ops merr (some ce)
        [.objectMarshaler (lit "g") (groupObject [Attr.zero])]) ∧
    mapFields std [.objectMarshaler (lit "g") (groupObject [Attr.zero])] =
      [(lit "g", .map [])] ∧
    slogStructure std [] [] [] [.mk (lit "g") (.group [Attr.zero])] = [] := by
  refine ⟨?_, rfl, rfl⟩
  have hen : debugLevel.toEnabler.enabled (convertSlogLevel r.level) = true := by
    simpa [Level.toEnabler, Level.enabled] using debugLevel_le_convertSlogLevel r.level
  exact ⟨_, Handler.handle_of_check ops merr (io_check_of_enabled ops hen enc out [] none st) rt⟩

end Reference

end Zap.Zapslog

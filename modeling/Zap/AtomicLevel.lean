import Zap.Zapcore.Level
import Zap.Lib.Machine

/-!
# Zap.AtomicLevel — `AtomicLevel` and its HTTP endpoint

An `AtomicLevel` shares one `*atomic.Int32` among its copies; `SetLevel` stores `int32(l)` and
`Level()` reads it back as an `int8`.  Its `ServeHTTP` answers `GET` with the level and changes it
on `PUT`: the new level comes from the form value `level` when the `Content-Type` is exactly
`application/x-www-form-urlencoded`, and from the JSON body's `level` member otherwise; either goes
through `Level.UnmarshalText`.  What `encoding/json` makes of the body is an input (`Body`), and the
response is its status and the value `serveHTTP` encodes, whose writes never fail.

* `setLevel_level`: `Level()` reads back what `SetLevel` stored.
* `decodePutRequest_mem`: a `PUT` that decodes carries one of the seven named levels.
* `serveHTTP_run`: over any sequence of requests, the level is that of the last `PUT` that
  decoded, or the initial one, and every level a `PUT` sets is named.
-/

namespace Zap

open Go.Utf8 Zapcore

/-! ## `AtomicLevel` -/

/-- An `AtomicLevel`: the `int32` its `*atomic.Int32` holds. -/
structure AtomicLevel where
  l : Int32
  deriving DecidableEq, Repr

/-- `NewAtomicLevel()` -/
def newAtomicLevel : AtomicLevel := ⟨infoLevel.toInt32⟩

/-- `lvl.SetLevel(l)`: `int32(l)` stored. -/
def AtomicLevel.setLevel (_ : AtomicLevel) (l : Level) : AtomicLevel := ⟨l.toInt32⟩

/-- `lvl.Level()`: `Level(int8(lvl.l.Load()))`. -/
def AtomicLevel.level (lvl : AtomicLevel) : Level := lvl.l.toInt8

/-- `NewAtomicLevelAt(l)` -/
def newAtomicLevelAt (l : Level) : AtomicLevel := newAtomicLevel.setLevel l

/-- `lvl.Enabled(l)` -/
def AtomicLevel.enabled (lvl : AtomicLevel) (l : Level) : Bool := lvl.level.enabled l

/-- `lvl.MarshalText()`, which is also `lvl.String()`. -/
def AtomicLevel.marshalText (lvl : AtomicLevel) : List UInt8 := lvl.level.marshalText

/-- `ParseAtomicLevel(text)`: a new `AtomicLevel` at the parsed level, or at `InfoLevel` with the
error. -/
def parseAtomicLevel (lowerCase : Nat → Nat) (text : List UInt8) : AtomicLevel × Option LevelError :=
  match parseLevel lowerCase text with
  | (l, none) => (newAtomicLevel.setLevel l, none)
  | (_, some e) => (newAtomicLevel, some e)

/-- `lvl.UnmarshalText(text)`, `none` for an `AtomicLevel` whose pointer is nil, which gets a fresh
`atomic.Int32` (holding `0`, `InfoLevel`) even when the text is refused. -/
def AtomicLevel.unmarshalText (lowerCase : Nat → Nat) (lvl : Option AtomicLevel) (text : List UInt8) :
    AtomicLevel × Option LevelError :=
  match Level.UnmarshalText lowerCase (some infoLevel) text with
  | .ok l => ((lvl.getD ⟨0⟩).setLevel l, none)
  | .error e => (lvl.getD ⟨0⟩, some e)

/-! ## The HTTP endpoint -/

/-- What `json.NewDecoder(body).Decode(&pld)` makes of a `PUT` body: a decoding error's text (not
JSON, or a `level` that is not a string), no level (the member absent or `null`), or the `level`
member's string, which `Decode` hands to `Level.UnmarshalText`. -/
inductive Body where
  | malformed (err : List UInt8)
  | noLevel
  | level (text : List UInt8)
  deriving DecidableEq, Repr

/-- The parts of an `*http.Request` that `serveHTTP` reads: the method, the `Content-Type` header,
`r.FormValue("level")` (empty when there is none) and the body. -/
structure Request where
  method : List UInt8
  contentType : List UInt8
  formLevel : List UInt8
  body : Body
  deriving DecidableEq, Repr

/-- Why a `PUT` is refused. -/
inductive PutError where
  /-- `errors.New("must specify logging level")` -/
  | noLevel
  /-- the form's level, refused by `Level.UnmarshalText` -/
  | level (e : LevelError)
  /-- `fmt.Errorf("malformed request body: %v", err)` of a decoding error -/
  | malformed (err : List UInt8)
  /-- the same, of the error `Level.UnmarshalText` gave `Decode` -/
  | malformedLevel (e : LevelError)
  deriving DecidableEq, Repr

/-- The error's text; `quote` is `fmt`'s `%q` of a byte slice. -/
def PutError.text (quote : List UInt8 → List UInt8) : PutError → List UInt8
  | .noLevel => lit "must specify logging level"
  | .level e => e.text quote
  | .malformed err => lit "malformed request body: " ++ err
  | .malformedLevel e => lit "malformed request body: " ++ e.text quote

/-- `decodePutURL(r)` -/
def decodePutURL (lowerCase : Nat → Nat) (r : Request) : Except PutError Level :=
  if r.formLevel = [] then .error .noLevel
  else
    match Level.UnmarshalText lowerCase (some infoLevel) r.formLevel with
    | .ok l => .ok l
    | .error e => .error (.level e)

/-- `decodePutJSON(r.Body)` -/
def decodePutJSON (lowerCase : Nat → Nat) (body : Body) : Except PutError Level :=
  match body with
  | .malformed err => .error (.malformed err)
  | .noLevel => .error .noLevel
  | .level text =>
    match Level.UnmarshalText lowerCase (some infoLevel) text with
    | .ok l => .ok l
    | .error e => .error (.malformedLevel e)

/-- `decodePutRequest(r.Header.Get("Content-Type"), r)` -/
def decodePutRequest (lowerCase : Nat → Nat) (r : Request) : Except PutError Level :=
  if r.contentType = lit "application/x-www-form-urlencoded" then decodePutURL lowerCase r
  else decodePutJSON lowerCase r.body

/-- What `serveHTTP` encodes: `payload{Level}`, or an `errorResponse`. -/
inductive Payload where
  | level (l : Level)
  | putError (e : PutError)
  /-- `errorResponse{Error: "Only GET and PUT are supported."}` -/
  | methodNotAllowed
  deriving DecidableEq, Repr

/-- An HTTP response: its status and the value encoded as its body. -/
structure Response where
  status : Nat
  payload : Payload
  deriving DecidableEq, Repr

/-- `lvl.serveHTTP(w, r)`: the level after the request, and the response. -/
def AtomicLevel.serveHTTP (lowerCase : Nat → Nat) (lvl : AtomicLevel) (r : Request) :
    AtomicLevel × Response :=
  if r.method = lit "GET" then (lvl, ⟨200, .level lvl.level⟩)
  else if r.method = lit "PUT" then
    match decodePutRequest lowerCase r with
    | .error e => (lvl, ⟨400, .putError e⟩)
    | .ok l => (lvl.setLevel l, ⟨200, .level (lvl.setLevel l).level⟩)
  else (lvl, ⟨405, .methodNotAllowed⟩)

/-! ## The level over a run of requests -/

@[simp] theorem setLevel_level (lvl : AtomicLevel) (l : Level) : (lvl.setLevel l).level = l := by
  simp [AtomicLevel.setLevel, AtomicLevel.level]

/-- **A `PUT` that decodes carries one of the seven named levels**, whether from the form or from
the JSON body. -/
theorem decodePutRequest_mem {lowerCase : Nat → Nat} {r : Request} {l : Level}
    (h : decodePutRequest lowerCase r = .ok l) : l ∈ levels := by
  unfold decodePutRequest at h
  by_cases hform : r.contentType = lit "application/x-www-form-urlencoded"
  · rw [if_pos hform, decodePutURL] at h
    by_cases he : r.formLevel = []
    · rw [if_pos he] at h
      cases h
    · rw [if_neg he] at h
      cases hu : Level.UnmarshalText lowerCase (some infoLevel) r.formLevel with
      | ok l' =>
        rw [hu] at h
        cases h
        exact UnmarshalText_mem hu
      | error e => rw [hu] at h; cases h
  · rw [if_neg hform] at h
    cases hb : r.body with
    | malformed err => rw [hb, decodePutJSON] at h; cases h
    | noLevel => rw [hb, decodePutJSON] at h; cases h
    | level text =>
      rw [hb, decodePutJSON] at h
      cases hu : Level.UnmarshalText lowerCase (some infoLevel) text with
      | ok l' =>
        simp only [hu] at h
        cases h
        exact UnmarshalText_mem hu
      | error e => simp only [hu] at h; cases h

/-- The level a request sets: that of a `PUT` whose level decodes. -/
def putLevel (lowerCase : Nat → Nat) (r : Request) : Option Level :=
  if r.method = lit "PUT" then (decodePutRequest lowerCase r).toOption else none

/-- One request: a `PUT` that decodes sets its level, anything else leaves the level alone. -/
theorem serveHTTP_level (lowerCase : Nat → Nat) (lvl : AtomicLevel) (r : Request) :
    (lvl.serveHTTP lowerCase r).1.level = (putLevel lowerCase r).getD lvl.level := by
  unfold AtomicLevel.serveHTTP putLevel
  by_cases hget : r.method = lit "GET"
  · have hput : r.method ≠ lit "PUT" := by rw [hget]; decide
    rw [if_pos hget, if_neg hput]
    rfl
  rw [if_neg hget]
  by_cases hput : r.method = lit "PUT"
  · rw [if_pos hput, if_pos hput]
    cases decodePutRequest lowerCase r with
    | ok l => simp [Except.toOption]
    | error e => rfl
  · rw [if_neg hput, if_neg hput]
    rfl

/-- A level a request sets is one of the seven named levels. -/
theorem putLevel_mem {lowerCase : Nat → Nat} {r : Request} {l : Level}
    (h : putLevel lowerCase r = some l) : l ∈ levels := by
  unfold putLevel at h
  by_cases hput : r.method = lit "PUT"
  · rw [if_pos hput] at h
    cases hd : decodePutRequest lowerCase r with
    | ok l' =>
      rw [hd] at h
      cases h
      exact decodePutRequest_mem hd
    | error e => rw [hd] at h; cases h
  · rw [if_neg hput] at h
    cases h

/-- **Over any sequence of requests the level is that of the last `PUT` that decoded**, or the
initial one if none did, and every level a `PUT` sets is one of the seven named levels: a failed
`PUT`, a `GET` or any other method never changes it. -/
theorem serveHTTP_run (lowerCase : Nat → Nat) (lvl : AtomicLevel) (rs : List Request) :
    (Mealy.run (AtomicLevel.serveHTTP lowerCase) lvl rs).1.level =
        ((rs.filterMap (putLevel lowerCase)).getLast?).getD lvl.level ∧
      ∀ l ∈ rs.filterMap (putLevel lowerCase), l ∈ levels := by
  refine ⟨?_, fun l hl => ?_⟩
  · -- induction on the requests: the first one's level, then overridden by any later `PUT`
    induction rs generalizing lvl with
    | nil => rfl
    | cons r rs ih =>
      rw [Mealy.run_cons, ih, serveHTTP_level, List.filterMap_cons]
      cases putLevel lowerCase r with
      | none => rfl
      | some l =>
        simp only [Option.getD_some, List.getLast?_cons]
  · obtain ⟨r, -, hr⟩ := List.mem_filterMap.mp hl
    exact putLevel_mem hr

end Zap

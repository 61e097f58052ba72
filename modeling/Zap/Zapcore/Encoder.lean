import Zap.Zapcore.Field

/-!
# Zap.Zapcore.Encoder — `EncoderConfig` and the callbacks it names

A `LevelEncoder`, `TimeEncoder`, ... is Go code handed a `PrimitiveArrayEncoder`; its methods
return nothing, so the callback is the list of calls it makes.  A callback that goes through
`encodeTimeLayout` makes the call `appendTimeLayout`, which each encoder carries out its own way.

* `EncoderConfig`: the keys, the line ending and the callbacks, a nil callback being `none`.
* The callbacks of `encoder.go` that need no floating-point arithmetic, among them
  `timeEncoderOfLayout`.
-/

namespace Zap.Zapcore

open Go Go.Utf8

/-- `EncoderConfig`: the callbacks are the calls they make, `none` for a nil func. -/
structure EncoderConfig where
  messageKey : List UInt8
  levelKey : List UInt8
  timeKey : List UInt8
  nameKey : List UInt8
  callerKey : List UInt8
  functionKey : List UInt8
  stacktraceKey : List UInt8
  skipLineEnding : Bool
  lineEnding : List UInt8
  encodeLevel : Option (Level → List PrimitiveCall)
  encodeTime : Option (Time → List PrimitiveCall)
  encodeDuration : Option (Int64 → List PrimitiveCall)
  encodeCaller : Option (EntryCaller → List PrimitiveCall)
  encodeName : Option (List UInt8 → List PrimitiveCall)
  /-- What the `ReflectedEncoder` made by `NewReflectedEncoder` writes for a non-nil value, or
  the error its `Encode` returns. -/
  newReflectedEncoder : Option (Nat → Except (List UInt8) (List UInt8))
  consoleSeparator : List UInt8

/-- `DefaultLineEnding` -/
def defaultLineEnding : List UInt8 := [0x0A]

/-- The `LineEnding` `newJSONEncoder` settles on. -/
def EncoderConfig.lineEndingOf (cfg : EncoderConfig) : List UInt8 :=
  if cfg.skipLineEnding then [] else if cfg.lineEnding = [] then defaultLineEnding
  else cfg.lineEnding

/-! ## Callbacks -/

/-- `LowercaseLevelEncoder` -/
def lowercaseLevelEncoder (l : Level) : List PrimitiveCall := [.appendString l.string]

/-- `CapitalLevelEncoder` -/
def capitalLevelEncoder (l : Level) : List PrimitiveCall := [.appendString l.capitalString]

/-- `EpochNanosTimeEncoder` -/
def epochNanosTimeEncoder (t : Time) : List PrimitiveCall := [.appendInt64 (Int64.ofInt t.UnixNano)]

/-- `encodeTimeLayout(t, layout, enc)` -/
def encodeTimeLayout (t : Time) (layout : List UInt8) : List PrimitiveCall :=
  [.appendTimeLayout t layout]

/-- `ISO8601TimeEncoder` -/
def iso8601TimeEncoder (t : Time) : List PrimitiveCall :=
  encodeTimeLayout t (lit "2006-01-02T15:04:05.000Z0700")

/-- `RFC3339TimeEncoder` -/
def rfc3339TimeEncoder (t : Time) : List PrimitiveCall :=
  encodeTimeLayout t (lit "2006-01-02T15:04:05Z07:00")

/-- `RFC3339NanoTimeEncoder` -/
def rfc3339NanoTimeEncoder (t : Time) : List PrimitiveCall :=
  encodeTimeLayout t (lit "2006-01-02T15:04:05.999999999Z07:00")

/-- `TimeEncoderOfLayout(layout)` -/
def timeEncoderOfLayout (layout : List UInt8) (t : Time) : List PrimitiveCall :=
  encodeTimeLayout t layout

/-- `NanosDurationEncoder` -/
def nanosDurationEncoder (d : Int64) : List PrimitiveCall := [.appendInt64 d]

/-- `MillisDurationEncoder`: `d.Nanoseconds() / 1e6`, rounded toward zero. -/
def millisDurationEncoder (d : Int64) : List PrimitiveCall := [.appendInt64 (d / 1000000)]

/-- `FullCallerEncoder` -/
def fullCallerEncoder (caller : EntryCaller) : List PrimitiveCall := [.appendString caller.string]

/-- `ShortCallerEncoder` -/
def shortCallerEncoder (caller : EntryCaller) : List PrimitiveCall :=
  [.appendString caller.trimmedPath]

/-- `FullNameEncoder` -/
def fullNameEncoder (loggerName : List UInt8) : List PrimitiveCall := [.appendString loggerName]

end Zap.Zapcore

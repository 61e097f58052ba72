import Zap.Lib.Separator
import Zap.Go.Utf8
import Zap.Go.Std
import Zap.Go.Multierr
import Zap.Go.Strconv
import Zap.Json.String
import Zap.Json.Value
import Zap.Json.Scalar
import Zap.Json.Reader
import Zap.Buffer
import Zap.Zapcore.Escape
import Zap.Zapcore.Level
import Zap.Zapcore.Entry
import Zap.Zapcore.Field
import Zap.Zapcore.Core
import Zap.Zapcore.MemoryEncoder
import Zap.Logger
import Zap.Field
import Zap.Exp.Zapslog
import Zap.Zapcore.Encoder
import Zap.Zapcore.JsonEncoder
import Zap.Zapcore.JsonJoin
import Zap.Zapcore.ConsoleEncoder
import Zap.Zapcore.JsonDecode
import Zap.Zapcore.WriteSyncer
import Zap.Config
import Zap.Zapcore.Sampler
import Zap.Zapio.Writer
import Zap.Zapcore.BufferedWriteSyncer
import Zap.Sugar
import Zap.Zapcore.LazyWith
import Zap.Zapcore.ErrorTree
import Zap.Go.Sync
import Zap.Stacktrace
import Zap.Ztest.Clock
import Zap.Go.Strings
import Zap.Sink
import Zap.Lib.Machine
import Zap.AtomicLevel
import Zap.Zapcore.IncreaseLevel
import Zap.Zapcore.Route
import Zap.Options
import Zap.Global
import Zap.Zapgrpc
import Zap.Build
import Zap.Zapcore.Tee

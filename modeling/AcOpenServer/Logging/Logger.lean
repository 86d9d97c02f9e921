import AcOpenServer.Library.Trace
import AcOpenServer.Runtime

namespace AcOpenServer
open Library
set_option autoImplicit true

/-- The enum numbers its members one after another. -/
abbrev LogChannelFlags := BitVec 8

namespace LogChannelFlags

def none : LogChannelFlags := 0

def info : LogChannelFlags := 1

def warn : LogChannelFlags := 2

def error : LogChannelFlags := 3

def debug : LogChannelFlags := 4

end LogChannelFlags

inductive LogLevel where
  | info
  | warn
  | error
  | debug
  deriving DecidableEq, Repr

namespace LogLevel

def flag : LogLevel → LogChannelFlags
  | .info => .info
  | .warn => .warn
  | .error => .error
  | .debug => .debug

def header : LogLevel → Utf16
  | .info => ascii "Info->"
  | .warn => ascii "Warn->"
  | .error => ascii "Error->"
  | .debug => ascii "Debug->"

end LogLevel

/-- `Environment.NewLine`, and whether the build defines `DEBUG`. -/
structure LogBuild where
  newLine : Utf16
  debug : Bool
  deriving DecidableEq, Repr

/-- The state of `Logger`; `written` are the strings given to `WriteCallback`, and `enqueued` all
that were ever put into the queue. -/
structure Logger where
  buffer : Utf16
  queue : List Utf16
  currentQueueLength : Int
  doTimer : Bool
  channelFlags : LogChannelFlags
  written : List Utf16
  enqueued : List Utf16
  deriving DecidableEq, Repr

/-- `StringBuilder.Length = n`, which cuts the text off or pads it with null characters. -/
def setLength (n : Nat) (buffer : Utf16) : Utf16 :=
  buffer.take n ++ List.replicate (n - buffer.length) 0

namespace Logger

/-- The logger starts a timer unless its period is zero. -/
def new (doTimer : Bool) : Logger where
  buffer := []
  queue := []
  currentQueueLength := 0
  doTimer
  channelFlags := .none
  written := []
  enqueued := []

/-- The loop of `Flush` over the strings it dequeues. -/
def appendAll : List Utf16 → Utf16 → Utf16
  | [], buffer => buffer
  | result :: queue, buffer => appendAll queue (buffer ++ result)

def flush (s : Logger) : Logger :=
  if s.currentQueueLength < 1 then s
  else
    let buffer := setLength s.currentQueueLength.toNat (setLength 0 s.buffer)
    let buffer := appendAll s.queue buffer
    { s with
      buffer
      queue := []
      currentQueueLength := 0
      written := s.written ++ [buffer] }

def checkFlushState (s : Logger) : Logger := if s.doTimer then s else flush s

/-- The enqueue methods differ in the strings they put into the queue. -/
def enqueueAll (pieces : List Utf16) (length : Nat) (s : Logger) : Logger :=
  checkFlushState { s with
    queue := s.queue ++ pieces
    currentQueueLength := wrap32 (s.currentQueueLength + length)
    enqueued := s.enqueued ++ pieces }

def enqueue (value : Utf16) : Logger → Logger := enqueueAll [value] value.length

variable (build : LogBuild)

def enqueueLine (value : Utf16) : Logger → Logger :=
  enqueueAll [value, build.newLine] (value.length + build.newLine.length)

def enqueueWrapLine (start value : Utf16) : Logger → Logger :=
  enqueueAll [start, value, build.newLine] (value.length + start.length + build.newLine.length)

def enqueueScoped (scope value : Utf16) : Logger → Logger :=
  enqueueAll [scope, value] (value.length + scope.length)

def enqueueLineScoped (scope value : Utf16) : Logger → Logger :=
  enqueueAll [scope, value, build.newLine] (value.length + scope.length + build.newLine.length)

def enqueueWrapLineScoped (start scope value : Utf16) : Logger → Logger :=
  enqueueAll [start, scope, value, build.newLine]
    (value.length + start.length + scope.length + build.newLine.length)

/-- The getters `DoLogInfo`, `DoLogWarn`, `DoLogError` and `DoLogDebug`. -/
def doLog (level : LogLevel) (s : Logger) : Bool := s.channelFlags &&& level.flag != 0

/-- Their setters. -/
def setDoLog (level : LogLevel) (value : Bool) (s : Logger) : Logger :=
  { s with
    channelFlags :=
      if value then s.channelFlags ||| level.flag else s.channelFlags &&& ~~~level.flag }

def doLogInfo : Logger → Bool := doLog .info

def doLogWarn : Logger → Bool := doLog .warn

def doLogError : Logger → Bool := doLog .error

def doLogDebug : Logger → Bool := doLog .debug

def write (value : Utf16) : Logger → Logger := enqueue value

def writeLine (value : Utf16) : Logger → Logger := enqueueLine build value

def scopedWrite (scope value : Utf16) : Logger → Logger := enqueueScoped scope value

def scopedWriteLine (scope value : Utf16) : Logger → Logger := enqueueLineScoped build scope value

def info (value : Utf16) (s : Logger) : Logger :=
  if s.doLogInfo then enqueueWrapLine build LogLevel.info.header value s else s

def warn (value : Utf16) (s : Logger) : Logger :=
  if s.doLogWarn then enqueueWrapLine build LogLevel.warn.header value s else s

def error (value : Utf16) (s : Logger) : Logger :=
  if s.doLogError then enqueueWrapLine build LogLevel.error.header value s else s

/-- The compiler drops calls of `Debug` unless the build defines `DEBUG`. -/
def debug (value : Utf16) (s : Logger) : Logger :=
  if build.debug then
    if s.doLogDebug then enqueueWrapLine build LogLevel.debug.header value s else s
  else s

def scopedInfo (scope value : Utf16) (s : Logger) : Logger :=
  if s.doLogInfo then enqueueWrapLineScoped build LogLevel.info.header scope value s else s

def scopedWarn (scope value : Utf16) (s : Logger) : Logger :=
  if s.doLogWarn then enqueueWrapLineScoped build LogLevel.warn.header scope value s else s

def scopedError (scope value : Utf16) (s : Logger) : Logger :=
  if s.doLogError then enqueueWrapLineScoped build LogLevel.error.header scope value s else s

def scopedDebug (scope value : Utf16) (s : Logger) : Logger :=
  if build.debug then
    if s.doLogDebug then enqueueWrapLineScoped build LogLevel.debug.header scope value s else s
  else s

def log : LogLevel → Utf16 → Logger → Logger
  | .info => info build
  | .warn => warn build
  | .error => error build
  | .debug => debug build

end Logger

/-- A logger seen through a scope, which all its methods pass on. -/
structure ScopeLog where
  scope : Utf16
  deriving DecidableEq, Repr

namespace ScopeLog

def new (scope : Utf16) : ScopeLog := ⟨scope ++ ascii "->"⟩

def push (scope : Utf16) (parent : ScopeLog) : ScopeLog := new (parent.scope ++ scope)

def log (build : LogBuild) (scopeLog : ScopeLog) : LogLevel → Utf16 → Logger → Logger
  | .info => Logger.scopedInfo build scopeLog.scope
  | .warn => Logger.scopedWarn build scopeLog.scope
  | .error => Logger.scopedError build scopeLog.scope
  | .debug => Logger.scopedDebug build scopeLog.scope

end ScopeLog

structure ServerConfig where
  logInfo : Bool
  logWarnings : Bool
  deriving DecidableEq, Repr

/-- `StartAsync` sets up the channels of its log. -/
def Server.startAsync (build : LogBuild) (config : ServerConfig) (s : Logger) : Logger :=
  let channelFlags : LogChannelFlags := if build.debug then .debug else .none
  let channelFlags := if config.logInfo then channelFlags ||| .info else channelFlags
  let channelFlags := if config.logWarnings then channelFlags ||| .warn else channelFlags
  { s with channelFlags := channelFlags ||| .error }

/-- A call of a method of `Logger`, or of one of a `ScopeLog` over it; a `Flush` may also come
from the timer. -/
inductive LogAction where
  | write (value : Utf16)
  | writeLine (value : Utf16)
  | scopedWrite (scope value : Utf16)
  | scopedWriteLine (scope value : Utf16)
  | log (level : LogLevel) (value : Utf16)
  | scopedLog (scopeLog : ScopeLog) (level : LogLevel) (value : Utf16)
  | flush
  | doTimer (value : Bool)
  | doLog (level : LogLevel) (value : Bool)
  | startAsync (config : ServerConfig)
  deriving DecidableEq, Repr

def Logger.next (build : LogBuild) : LogAction → Logger → Logger
  | .write value => write value
  | .writeLine value => writeLine build value
  | .scopedWrite scope value => scopedWrite scope value
  | .scopedWriteLine scope value => scopedWriteLine build scope value
  | .log level value => log build level value
  | .scopedLog scopeLog level value => scopeLog.log build level value
  | .flush => flush
  | .doTimer value => fun s => { s with doTimer := value }
  | .doLog level value => setDoLog level value
  | .startAsync config => Server.startAsync build config

end AcOpenServer

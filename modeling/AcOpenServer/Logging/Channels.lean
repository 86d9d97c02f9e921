import AcOpenServer.Logging.Output

namespace AcOpenServer
open Library
set_option autoImplicit true

namespace LogAction

/-- What a call says about the channels: an assignment about one of them, and the configuration
of a server about all four. -/
def assign (build : LogBuild) : LogAction → (LogLevel → Bool) → LogLevel → Bool
  | .doLog level value, assigned => Function.update assigned level value
  | .startAsync config, _ => fun level =>
    match level with
    | .info => config.logInfo
    | .warn => config.logWarnings
    | .error => true
    | .debug => build.debug
  | _, assigned => assigned

/-- The level of a call that logs a message. -/
def level? : LogAction → Option LogLevel
  | .log level _ => some level
  | .scopedLog _ level _ => some level
  | _ => none

end LogAction

/-- A logger and the last value that was assigned to each of its channels. -/
structure AssignedLogger where
  logger : Logger
  assigned : LogLevel → Bool

namespace AssignedLogger

def new (doTimer : Bool) : AssignedLogger := ⟨.new doTimer, fun _ => false⟩

def next (build : LogBuild) (a : LogAction) (s : AssignedLogger) : AssignedLogger :=
  ⟨s.logger.next build a, a.assign build s.assigned⟩

/-- Every channel is as it was last assigned. -/
def AsAssigned (s : AssignedLogger) : Prop := ∀ level, s.logger.doLog level = s.assigned level

/-- The call leaves every channel as it was last assigned, an assignment changes no other
channel, and a message is enqueued exactly when its own channel was last enabled. -/
structure Independent (build : LogBuild) (a : LogAction) (s : AssignedLogger) : Prop where
  asAssigned : AsAssigned (next build a s)
  others : ∀ level value, a = .doLog level value → ∀ other, other ≠ level →
    (s.logger.next build a).doLog other = s.logger.doLog other
  enqueued : ∀ level, a.level? = some level → (level = .debug → build.debug = true) →
    ((s.logger.next build a).enqueued ≠ s.logger.enqueued ↔ s.assigned level = true)

/-- The call does not change a bit that another channel reads, too. -/
def KeepsShared (a : LogAction) (s : AssignedLogger) : Prop :=
  match a with
  | .doLog .info value => value = s.logger.doLogInfo ∨ s.logger.doLogWarn = true
  | .doLog .warn value => value = s.logger.doLogWarn ∨ s.logger.doLogInfo = true
  | .doLog .error value => s.logger.doLogInfo = value ∧ s.logger.doLogWarn = value
  | .startAsync config => config.logInfo = true ∧ config.logWarnings = true
  | _ => True

end AssignedLogger

namespace Logger

variable {build : LogBuild} {s : Logger} {a : LogAction}

/-- The bits of the error channel are those of the two below it. -/
theorem doLogError_eq (s : Logger) : s.doLogError = (s.doLogInfo || s.doLogWarn) := by
  have h : ∀ flags : LogChannelFlags, (flags &&& .error != 0) =
      ((flags &&& .info != 0) || (flags &&& .warn != 0)) := by decide
  exact h s.channelFlags

theorem doLog_setDoLog (level : LogLevel) (value : Bool) (s : Logger) :
    (setDoLog level value s).doLogInfo =
        (if level = .info ∨ level = .error then value else s.doLogInfo) ∧
      (setDoLog level value s).doLogWarn =
        (if level = .warn ∨ level = .error then value else s.doLogWarn) ∧
      (setDoLog level value s).doLogDebug = (if level = .debug then value else s.doLogDebug) := by
  have h : ∀ flags : LogChannelFlags,
      ((if value then flags ||| level.flag else flags &&& ~~~level.flag) &&& .info != 0) =
          (if level = .info ∨ level = .error then value else flags &&& .info != 0) ∧
        ((if value then flags ||| level.flag else flags &&& ~~~level.flag) &&& .warn != 0) =
          (if level = .warn ∨ level = .error then value else flags &&& .warn != 0) ∧
        ((if value then flags ||| level.flag else flags &&& ~~~level.flag) &&& .debug != 0) =
          (if level = .debug then value else flags &&& .debug != 0) := by
    cases level <;> cases value <;> decide
  exact h s.channelFlags

theorem channelFlags_flush (s : Logger) : (flush s).channelFlags = s.channelFlags := by
  unfold flush
  split
  · rfl
  · rfl

theorem channelFlags_enqueueAll (pieces : List Utf16) (length : Nat) (s : Logger) :
    (enqueueAll pieces length s).channelFlags = s.channelFlags := by
  unfold enqueueAll checkFlushState
  split
  · rfl
  · exact channelFlags_flush _

theorem channelFlags_log (build : LogBuild) (level : LogLevel) (value : Utf16) (s : Logger) :
    (log build level value s).channelFlags = s.channelFlags := by
  rw [log_eq]
  split
  · exact channelFlags_enqueueAll _ _ s
  · rfl

theorem channelFlags_scopedLog (build : LogBuild) (scopeLog : ScopeLog) (level : LogLevel)
    (value : Utf16) (s : Logger) :
    (scopeLog.log build level value s).channelFlags = s.channelFlags := by
  rw [scopedLog_eq]
  split
  · exact channelFlags_enqueueAll _ _ s
  · rfl

theorem doLog_congr {t : Logger} (h : t.channelFlags = s.channelFlags) (level : LogLevel) :
    t.doLog level = s.doLog level := by
  rw [doLog, h, doLog]

theorem doLog_startAsync (build : LogBuild) (config : ServerConfig) (s : Logger) :
    (Server.startAsync build config s).doLogInfo = true ∧
      (Server.startAsync build config s).doLogWarn = true ∧
      (Server.startAsync build config s).doLogError = true ∧
      (Server.startAsync build config s).doLogDebug = build.debug := by
  have h : ∀ debug logInfo logWarnings : Bool,
      let flags : LogChannelFlags := if debug then .debug else .none
      let flags := if logInfo then flags ||| .info else flags
      let flags := (if logWarnings then flags ||| .warn else flags) ||| .error
      (flags &&& .info != 0) = true ∧ (flags &&& .warn != 0) = true ∧
        (flags &&& .error != 0) = true ∧ (flags &&& .debug != 0) = debug := by decide
  exact h build.debug config.logInfo config.logWarnings

theorem enqueued_enqueueAll (pieces : List Utf16) (length : Nat) (s : Logger) :
    (enqueueAll pieces length s).enqueued = s.enqueued ++ pieces := by
  unfold enqueueAll checkFlushState
  split
  · rfl
  · exact enqueued_flush _

theorem enqueued_next (build : LogBuild) (a : LogAction) (s : Logger) :
    (next build a s).enqueued = s.enqueued ++ pieces build a s := by
  rcases next_cases build a s with rfl | ⟨_, hnext⟩ | ⟨_, hpieces, hsame⟩
  · rw [pieces, List.append_nil]
    exact enqueued_flush s
  · rw [hnext, enqueued_enqueueAll]
  · rw [hpieces, List.append_nil, hsame.enqueued]

theorem emits_eq (level : LogLevel) (h : level = .debug → build.debug = true) (s : Logger) :
    emits build level s = s.doLog level := by
  cases level with
  | info => rfl
  | warn => rfl
  | error => rfl
  | debug =>
    rw [emits, h rfl, Bool.true_and]
    rfl

theorem pieces_ne_nil (h : a.level? = some level) :
    pieces build a s ≠ [] ↔ emits build level s = true := by
  cases a with
  | log level' value =>
    cases h
    rw [pieces]
    cases emits build level s with
    | true => exact iff_of_true (List.cons_ne_nil _ _) rfl
    | false => exact iff_of_false (fun h => h rfl) Bool.false_ne_true
  | scopedLog scopeLog level' value =>
    cases h
    rw [pieces]
    cases emits build level s with
    | true => exact iff_of_true (List.cons_ne_nil _ _) rfl
    | false => exact iff_of_false (fun h => h rfl) Bool.false_ne_true
  | _ => cases h

/-- A message is enqueued exactly when its channel is enabled. -/
theorem enqueued_next_ne (hlevel : a.level? = some level)
    (hdebug : level = .debug → build.debug = true) :
    (next build a s).enqueued ≠ s.enqueued ↔ s.doLog level = true := by
  rw [enqueued_next, ← emits_eq level hdebug, ← pieces_ne_nil hlevel, ne_eq,
    List.append_right_eq_self]

end Logger

namespace AssignedLogger

variable {build : LogBuild} {s : AssignedLogger} {a : LogAction}

open Logger

theorem asAssigned_iff : AsAssigned s ↔
    s.logger.doLogInfo = s.assigned .info ∧ s.logger.doLogWarn = s.assigned .warn ∧
      s.logger.doLogError = s.assigned .error ∧ s.logger.doLogDebug = s.assigned .debug := by
  constructor
  · intro h
    exact ⟨h .info, h .warn, h .error, h .debug⟩
  · intro h level
    cases level with
    | info => exact h.1
    | warn => exact h.2.1
    | error => exact h.2.2.1
    | debug => exact h.2.2.2

theorem asAssigned_new (doTimer : Bool) : AsAssigned (new doTimer) := by
  intro level
  have h : (LogChannelFlags.none &&& level.flag != 0) = false := by
    cases level <;> decide
  exact h

theorem asAssigned_next_iff (build : LogBuild) (hs : AsAssigned s) :
    AsAssigned (next build a s) ↔ KeepsShared a s := by
  have hkept : ∀ {t : Logger}, t.channelFlags = s.logger.channelFlags →
      (AsAssigned ⟨t, s.assigned⟩ ↔ True) := by
    intro t ht
    apply iff_of_true _ trivial
    intro level
    exact (doLog_congr ht level).trans (hs level)
  cases a with
  | write value => exact hkept (channelFlags_enqueueAll _ _ _)
  | writeLine value => exact hkept (channelFlags_enqueueAll _ _ _)
  | scopedWrite scope value => exact hkept (channelFlags_enqueueAll _ _ _)
  | scopedWriteLine scope value => exact hkept (channelFlags_enqueueAll _ _ _)
  | log level value => exact hkept (channelFlags_log _ _ _ _)
  | scopedLog scopeLog level value => exact hkept (channelFlags_scopedLog _ _ _ _ _)
  | flush => exact hkept (channelFlags_flush _)
  | doTimer value => exact hkept rfl
  | startAsync config =>
    obtain ⟨hinfo, hwarn, herror, hdebug⟩ := doLog_startAsync build config s.logger
    rw [asAssigned_iff]
    change (Server.startAsync build config s.logger).doLogInfo = config.logInfo ∧
      (Server.startAsync build config s.logger).doLogWarn = config.logWarnings ∧
      (Server.startAsync build config s.logger).doLogError = true ∧
      (Server.startAsync build config s.logger).doLogDebug = build.debug ↔
        config.logInfo = true ∧ config.logWarnings = true
    rw [hinfo, hwarn, herror, hdebug]
    constructor
    · intro h
      exact ⟨h.1.symm, h.2.1.symm⟩
    · intro h
      exact ⟨h.1.symm, h.2.symm, rfl, rfl⟩
  | doLog level value =>
    obtain ⟨hinfo, hwarn, hdebug⟩ := doLog_setDoLog level value s.logger
    have herror := doLogError_eq (setDoLog level value s.logger)
    have hbefore := doLogError_eq s.logger
    obtain ⟨hi, hw, he, hd⟩ := asAssigned_iff.1 hs
    rw [asAssigned_iff]
    change (setDoLog level value s.logger).doLogInfo =
        Function.update s.assigned level value .info ∧
      (setDoLog level value s.logger).doLogWarn = Function.update s.assigned level value .warn ∧
      (setDoLog level value s.logger).doLogError = Function.update s.assigned level value .error ∧
      (setDoLog level value s.logger).doLogDebug = Function.update s.assigned level value .debug ↔ _
    rw [herror, hinfo, hwarn, hdebug]
    cases level with
    | info =>
      simp only [Function.update, reduceCtorEq, eq_rec_constant, dite_eq_ite, if_true, if_false,
        or_false, KeepsShared, ← hw, ← he, ← hd, hbefore]
      cases value <;> cases s.logger.doLogInfo <;> cases s.logger.doLogWarn <;> simp
    | warn =>
      simp only [Function.update, reduceCtorEq, eq_rec_constant, dite_eq_ite, if_true, if_false,
        or_false, KeepsShared, ← hi, ← he, ← hd, hbefore]
      cases value <;> cases s.logger.doLogInfo <;> cases s.logger.doLogWarn <;> simp
    | error =>
      simp only [Function.update, reduceCtorEq, eq_rec_constant, dite_eq_ite, if_true, if_false,
        false_or, KeepsShared, ← hi, ← hw, ← hd, Bool.or_self, and_true]
      exact and_congr eq_comm eq_comm
    | debug =>
      simp only [Function.update, reduceCtorEq, eq_rec_constant, dite_eq_ite, if_true, if_false,
        or_self, KeepsShared, ← hi, ← hw, ← he, hbefore, and_true]

theorem independent_iff (hs : AsAssigned s) : Independent build a s ↔ KeepsShared a s := by
  rw [← asAssigned_next_iff build hs]
  constructor
  · intro h
    exact h.asAssigned
  · intro h
    refine ⟨h, ?_, ?_⟩
    · intro level value ha other hne
      subst ha
      have hother : (s.logger.next build (.doLog level value)).doLog other =
          Function.update s.assigned level value other := h other
      rw [hother, Function.update_of_ne hne, hs other]
    · intro level hlevel hdebug
      rw [enqueued_next_ne hlevel hdebug, hs level]

/-- Channels are independent as long as no call changes a bit that two of them share. -/
theorem channels_independent_iff (build : LogBuild) (doTimer : Bool) (actions : List LogAction) :
    AllSteps (next build) (Independent build) actions (new doTimer) ↔
      AllSteps (next build) KeepsShared actions (new doTimer) := by
  apply allSteps_iff (P := AsAssigned)
  · intro a s hs
    exact independent_iff hs
  · intro a s hs h
    exact h.asAssigned
  · exact asAssigned_new doTimer

/-- Enabling errors enables warnings. -/
theorem error_enables_warn : ¬ ∀ (build : LogBuild) (doTimer : Bool) (actions : List LogAction),
    AllSteps (next build) (Independent build) actions (new doTimer) := by
  intro h
  have hwarn := (h ⟨ascii "\n", false⟩ false [.doLog .error true]).1.asAssigned .warn
  exact absurd hwarn (by decide)

end AssignedLogger

end AcOpenServer

import AcOpenServer.Logging.Logger

namespace AcOpenServer
open Library
set_option autoImplicit true

namespace Logger

/-- A call at this level gets as far as the queue. -/
def emits (build : LogBuild) : LogLevel → Logger → Bool
  | .info, s => s.doLogInfo
  | .warn, s => s.doLogWarn
  | .error, s => s.doLogError
  | .debug, s => build.debug && s.doLogDebug

/-- The strings a call puts into the queue. -/
def pieces (build : LogBuild) : LogAction → Logger → List Utf16
  | .write value, _ => [value]
  | .writeLine value, _ => [value, build.newLine]
  | .scopedWrite scope value, _ => [scope, value]
  | .scopedWriteLine scope value, _ => [scope, value, build.newLine]
  | .log level value, s => if emits build level s then [level.header, value, build.newLine] else []
  | .scopedLog scopeLog level value, s =>
    if emits build level s then [level.header, scopeLog.scope, value, build.newLine] else []
  | .flush, _ => []
  | .doTimer _, _ => []
  | .doLog _ _, _ => []
  | .startAsync _, _ => []

/-- The text in the queue and all that was written and enqueued is the same. -/
structure SameText (s t : Logger) : Prop where
  queue : t.queue = s.queue
  length : t.currentQueueLength = s.currentQueueLength
  written : t.written = s.written
  enqueued : t.enqueued = s.enqueued

/-- Everything that was enqueued has been written or is in the queue, and the counter is the
length of the queue. -/
structure Exact (s : Logger) : Prop where
  written : s.written.flatten ++ s.queue.flatten = s.enqueued.flatten
  length : s.currentQueueLength = s.queue.flatten.length

/-- The call flushes the queue, as the flush it is or because no timer would do so. -/
def Flushes (build : LogBuild) (a : LogAction) (s : Logger) : Prop :=
  a = .flush ∨ pieces build a s ≠ [] ∧ s.doTimer = false

/-- The call keeps the account of what was enqueued, and leaves nothing in the queue when it
flushes it. -/
def WritesExactly (build : LogBuild) (a : LogAction) (s : Logger) : Prop :=
  Exact (next build a s) ∧ (Flushes build a s →
    (next build a s).written.flatten = (next build a s).enqueued.flatten)

/-- The call does not flush a queue that has text in it, and the counter does not overflow. -/
def FlushesNothing (build : LogBuild) (a : LogAction) (s : Logger) : Prop :=
  (Flushes build a s → (s.queue ++ pieces build a s).flatten = []) ∧
    (pieces build a s ≠ [] → (s.queue ++ pieces build a s).flatten.length < 2 ^ 31)

variable {build : LogBuild} {s t : Logger} {a : LogAction}

theorem exact_new (doTimer : Bool) : Exact (new doTimer) := ⟨rfl, rfl⟩

theorem SameText.exact (h : SameText s t) (hs : Exact s) : Exact t where
  written := by rw [h.written, h.queue, h.enqueued, hs.written]
  length := by rw [h.length, h.queue, hs.length]

theorem log_eq (build : LogBuild) (level : LogLevel) (value : Utf16) (s : Logger) :
    log build level value s =
      if emits build level s then enqueueWrapLine build level.header value s else s := by
  cases level with
  | info => rfl
  | warn => rfl
  | error => rfl
  | debug =>
    change debug build value s = if build.debug && s.doLogDebug then _ else s
    rw [debug]
    cases build.debug with
    | true => rfl
    | false => rfl

theorem scopedLog_eq (build : LogBuild) (scopeLog : ScopeLog) (level : LogLevel) (value : Utf16)
    (s : Logger) : scopeLog.log build level value s =
      if emits build level s then
        enqueueWrapLineScoped build level.header scopeLog.scope value s
      else s := by
  cases level with
  | info => rfl
  | warn => rfl
  | error => rfl
  | debug =>
    change scopedDebug build scopeLog.scope value s = if build.debug && s.doLogDebug then _ else s
    rw [scopedDebug]
    cases build.debug with
    | true => rfl
    | false => rfl

theorem enqueueAll_length {pieces : List Utf16} (h : length = pieces.flatten.length) (s : Logger) :
    enqueueAll pieces length s = enqueueAll pieces pieces.flatten.length s := by
  rw [h]

theorem next_cases (build : LogBuild) (a : LogAction) (s : Logger) :
    a = .flush ∨
      (pieces build a s ≠ [] ∧
        next build a s = enqueueAll (pieces build a s) (pieces build a s).flatten.length s) ∨
      a ≠ .flush ∧ pieces build a s = [] ∧ SameText s (next build a s) := by
  cases a with
  | write value =>
    apply Or.inr
    apply Or.inl
    apply And.intro (List.cons_ne_nil _ _)
    apply enqueueAll_length
    simp
  | writeLine value =>
    apply Or.inr
    apply Or.inl
    apply And.intro (List.cons_ne_nil _ _)
    apply enqueueAll_length
    simp
  | scopedWrite scope value =>
    apply Or.inr
    apply Or.inl
    apply And.intro (List.cons_ne_nil _ _)
    apply enqueueAll_length
    simp
    omega
  | scopedWriteLine scope value =>
    apply Or.inr
    apply Or.inl
    apply And.intro (List.cons_ne_nil _ _)
    apply enqueueAll_length
    simp
    omega
  | log level value =>
    apply Or.inr
    rw [next, log_eq]
    by_cases h : emits build level s = true
    · apply Or.inl
      simp only [pieces, if_pos h]
      apply And.intro (List.cons_ne_nil _ _)
      apply enqueueAll_length
      simp
      omega
    · apply Or.inr
      simp only [pieces, if_neg h]
      exact ⟨nofun, trivial, rfl, rfl, rfl, rfl⟩
  | scopedLog scopeLog level value =>
    apply Or.inr
    rw [next, scopedLog_eq]
    by_cases h : emits build level s = true
    · apply Or.inl
      simp only [pieces, if_pos h]
      apply And.intro (List.cons_ne_nil _ _)
      apply enqueueAll_length
      simp
      omega
    · apply Or.inr
      simp only [pieces, if_neg h]
      exact ⟨nofun, trivial, rfl, rfl, rfl, rfl⟩
  | flush => exact .inl rfl
  | doTimer value => exact .inr (.inr ⟨nofun, rfl, rfl, rfl, rfl, rfl⟩)
  | doLog level value => exact .inr (.inr ⟨nofun, rfl, rfl, rfl, rfl, rfl⟩)
  | startAsync config => exact .inr (.inr ⟨nofun, rfl, rfl, rfl, rfl, rfl⟩)

theorem appendAll_eq (queue : List Utf16) (buffer : Utf16) :
    appendAll queue buffer = buffer ++ queue.flatten := by
  induction queue generalizing buffer with
  | nil => rw [appendAll, List.flatten_nil, List.append_nil]
  | cons result queue ih => rw [appendAll, ih, List.flatten_cons, List.append_assoc]

theorem flush_of_lt (h : s.currentQueueLength < 1) : flush s = s := if_pos h

/-- A flush writes as many null characters as the queue has, and then the queue. -/
theorem written_flush (h : 1 ≤ s.currentQueueLength) : (flush s).written =
    s.written ++ [List.replicate s.currentQueueLength.toNat 0 ++ s.queue.flatten] := by
  rw [flush, if_neg (by omega)]
  change s.written ++ [appendAll _ _] = _
  rw [appendAll_eq, setLength, setLength, List.take_zero, Nat.zero_sub, List.replicate_zero,
    List.append_nil, List.take_nil, List.nil_append, List.length_nil, Nat.sub_zero]

theorem queue_flush (h : 1 ≤ s.currentQueueLength) : (flush s).queue = [] := by
  rw [flush, if_neg (by omega)]

theorem enqueued_flush (s : Logger) : (flush s).enqueued = s.enqueued := by
  unfold flush
  split
  · rfl
  · rfl

theorem not_exact_flush (h : 1 ≤ s.currentQueueLength)
    (hs : s.written.flatten ++ s.queue.flatten = s.enqueued.flatten) : ¬ Exact (flush s) := by
  intro hexact
  have hwritten := congrArg List.length hexact.written
  rw [written_flush h, queue_flush h, enqueued_flush, ← hs] at hwritten
  simp only [List.flatten_append, List.flatten_cons, List.flatten_nil, List.append_nil,
    List.length_append, List.length_replicate] at hwritten
  omega

theorem writesExactly_flush (hs : Exact s) :
    WritesExactly build .flush s ↔ FlushesNothing build .flush s := by
  have hqueue : (s.queue ++ pieces build .flush s).flatten = s.queue.flatten := by
    rw [pieces, List.append_nil]
  have hlength := hs.length
  rw [FlushesNothing, hqueue]
  by_cases h : s.currentQueueLength < 1
  · have hnil : s.queue.flatten = [] := List.length_eq_zero_iff.1 (by omega)
    have hnext : next build .flush s = s := flush_of_lt h
    have hall : s.written.flatten = s.enqueued.flatten := by
      rw [← hs.written, hnil, List.append_nil]
    rw [WritesExactly, hnext]
    exact iff_of_true ⟨hs, fun _ => hall⟩ ⟨fun _ => hnil, nofun⟩
  · apply iff_of_false
    · intro hwrites
      exact not_exact_flush (by omega) hs.written hwrites.1
    · intro hnothing
      have hnil := hnothing.1 (.inl rfl)
      rw [hnil] at hlength
      exact h (by rw [hlength]; decide)

/-- A logger whose counter has followed the queue, but may have overflowed. -/
structure Counted (t : Logger) : Prop where
  written : t.written.flatten ++ t.queue.flatten = t.enqueued.flatten
  length : t.currentQueueLength = wrap32 t.queue.flatten.length

theorem Counted.exact_iff (h : Counted t) : Exact t ↔ t.queue.flatten.length < 2 ^ 31 := by
  have hlength := h.length
  unfold wrap32 at hlength
  constructor
  · intro hexact
    have hlength' := hexact.length
    omega
  · intro hlt
    exact ⟨h.written, by omega⟩

theorem Counted.flush_iff (h : Counted t) :
    Exact (flush t) ∧ (flush t).written.flatten = (flush t).enqueued.flatten ↔
      t.queue.flatten = [] ∧ t.queue.flatten.length < 2 ^ 31 := by
  by_cases hlt : t.currentQueueLength < 1
  · rw [flush_of_lt hlt, h.exact_iff]
    constructor
    · intro hflush
      have hlength := (h.exact_iff.2 hflush.1).length
      exact ⟨List.length_eq_zero_iff.1 (by omega), hflush.1⟩
    · intro hnil
      refine ⟨hnil.2, ?_⟩
      rw [← h.written, hnil.1, List.append_nil]
  · apply iff_of_false
    · intro hflush
      exact not_exact_flush (by omega) h.written hflush.1
    · intro hnil
      have hlength := h.length
      rw [hnil.1] at hlength
      exact hlt (by rw [hlength]; decide)

/-- The logger after a call of an enqueue method has filled the queue. -/
def fill (ps : List Utf16) (s : Logger) : Logger :=
  { s with
    queue := s.queue ++ ps
    currentQueueLength := wrap32 (s.currentQueueLength + ps.flatten.length)
    enqueued := s.enqueued ++ ps }

theorem Exact.fill (h : Exact s) (ps : List Utf16) : Counted (fill ps s) where
  written := by
    change s.written.flatten ++ (s.queue ++ ps).flatten = (s.enqueued ++ ps).flatten
    rw [List.flatten_append, List.flatten_append, ← h.written, List.append_assoc]
  length := by
    change wrap32 _ = wrap32 (s.queue ++ ps).flatten.length
    rw [List.flatten_append, List.length_append, h.length, Int.natCast_add]

theorem writesExactly_enqueue (hs : Exact s) (hpieces : pieces build a s ≠ [])
    (hnext : next build a s = enqueueAll (pieces build a s) (pieces build a s).flatten.length s) :
    WritesExactly build a s ↔ FlushesNothing build a s := by
  have hflushes : Flushes build a s ↔ s.doTimer = false := by
    constructor
    · intro h
      rcases h with rfl | h
      · exact (hpieces rfl).elim
      · exact h.2
    · intro h
      exact .inr ⟨hpieces, h⟩
  have hfill := hs.fill (pieces build a s)
  have hnext' : next build a s = checkFlushState (fill (pieces build a s) s) := hnext
  have htimer : (fill (pieces build a s) s).doTimer = s.doTimer := rfl
  rw [WritesExactly, FlushesNothing, hflushes, hnext', checkFlushState, htimer]
  cases s.doTimer with
  | true =>
    rw [if_pos rfl, hfill.exact_iff]
    constructor
    · intro h
      exact ⟨nofun, fun _ => h.1⟩
    · intro h
      exact ⟨h.2 hpieces, nofun⟩
  | false =>
    rw [if_neg Bool.false_ne_true]
    constructor
    · intro h
      obtain ⟨hnil, hlt⟩ := hfill.flush_iff.1 ⟨h.1, h.2 rfl⟩
      exact ⟨fun _ => hnil, fun _ => hlt⟩
    · intro h
      obtain ⟨hexact, hall⟩ := hfill.flush_iff.2 ⟨h.1 rfl, h.2 hpieces⟩
      exact ⟨hexact, fun _ => hall⟩

theorem writesExactly_iff (hs : Exact s) :
    WritesExactly build a s ↔ FlushesNothing build a s := by
  rcases next_cases build a s with rfl | ⟨hpieces, hnext⟩ | ⟨hflush, hpieces, hsame⟩
  · exact writesExactly_flush hs
  · exact writesExactly_enqueue hs hpieces hnext
  · have hflushes : ¬ Flushes build a s := by
      intro h
      rcases h with h | ⟨h, _⟩
      · exact hflush h
      · exact h hpieces
    apply iff_of_true
    · exact ⟨hsame.exact hs, fun h => (hflushes h).elim⟩
    · exact ⟨fun h => (hflushes h).elim, fun h => (h hpieces).elim⟩

/-- The output of a logger is what was logged exactly when no flush finds any text. -/
theorem writes_exactly_iff (build : LogBuild) (doTimer : Bool) (actions : List LogAction) :
    AllSteps (next build) (WritesExactly build) actions (new doTimer) ↔
      AllSteps (next build) (FlushesNothing build) actions (new doTimer) := by
  apply allSteps_iff (P := Exact)
  · intro a s hs
    exact writesExactly_iff hs
  · intro a s hs h
    exact h.1
  · exact exact_new doTimer

/-- A single character is written after a null character. -/
theorem flush_pads_output : ¬ ∀ (build : LogBuild) (doTimer : Bool) (actions : List LogAction),
    AllSteps (next build) (WritesExactly build) actions (new doTimer) := by
  intro h
  have hwrite := h ⟨ascii "\n", false⟩ false [.write (ascii "a")]
  exact absurd hwrite.1.1.written (by decide)

end Logger

end AcOpenServer

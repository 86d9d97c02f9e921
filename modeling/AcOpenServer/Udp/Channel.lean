import AcOpenServer.Library.Trace

namespace AcOpenServer
open Library
set_option autoImplicit true

/-- An object `UdpChannelClient`; `delivered` are the buffers it was given, and the two numbers
say how many datagrams its listener had received when it was accepted and disconnected. -/
structure UdpChannelClient (E : Type) where
  endPoint : E
  buffer : Option (List UInt8)
  disconnected : Bool
  disposedValue : Bool
  delivered : List (List UInt8)
  acceptedAt : Nat
  disconnectedAt : Option Nat
  deriving DecidableEq, Repr

namespace UdpChannelClient

def notifyReceived (buffer : List UInt8) (c : UdpChannelClient E) : UdpChannelClient E :=
  if c.disconnected then c
  else { c with buffer := some buffer, delivered := c.delivered ++ [buffer] }

@[simp]
theorem endPoint_notifyReceived (buffer : List UInt8) (c : UdpChannelClient E) :
    (c.notifyReceived buffer).endPoint = c.endPoint := by
  unfold notifyReceived
  split
  · rfl
  · rfl

@[simp]
theorem disconnected_notifyReceived (buffer : List UInt8) (c : UdpChannelClient E) :
    (c.notifyReceived buffer).disconnected = c.disconnected := by
  unfold notifyReceived
  split
  · rfl
  · rfl

end UdpChannelClient

/-- The state of `UdpChannelListener`, with the loops of `ListenAsync` that are running, the objects
it has made, which `clients` refers to by their numbers, and the datagrams it has received. -/
structure UdpChannelListener (E : Type) [DecidableEq E] where
  clients : AList (fun _ : E => Nat)
  accepted : Bool
  loops : Nat
  cancelled : Bool
  disposedValue : Bool
  objects : List (UdpChannelClient E)
  datagrams : List (E × List UInt8)

/-- A datagram that is received, with whether the callbacks it is given to return, or a call of
a method of the listener or of one of the clients. What a callback calls comes after it. -/
inductive UdpAction (E : Type) where
  | listen
  | received (endPoint : E) (buffer : List UInt8) (returns : Bool)
  | subscribe
  | unsubscribe
  | disconnect (i : Nat)
  | disposeClient (i : Nat)
  | cancel
  | dispose

namespace UdpChannelListener

variable {E : Type} [DecidableEq E]

def new : UdpChannelListener E where
  clients := ∅
  accepted := false
  loops := 0
  cancelled := false
  disposedValue := false
  objects := []
  datagrams := []

/-- A call of `ListenAsync`, whose first `ReceiveAsync` fails on a token that is cancelled. -/
def listen (s : UdpChannelListener E) : UdpChannelListener E :=
  if s.cancelled then s else { s with loops := s.loops + 1 }

/-- A pass through a loop of `ListenAsync`; an exception of a callback ends the loop. -/
def received (endPoint : E) (buffer : List UInt8) (returns : Bool) (s : UdpChannelListener E) :
    UdpChannelListener E :=
  if 0 < s.loops then
    match s.clients.lookup endPoint with
    | some i =>
      { s with
        loops := if returns then s.loops else s.loops - 1
        objects := s.objects.modify i (·.notifyReceived buffer)
        datagrams := s.datagrams ++ [(endPoint, buffer)] }
    | none =>
      if s.accepted then
        { s with
          loops := if returns then s.loops else s.loops - 1
          clients := s.clients.insert endPoint s.objects.length
          objects := s.objects ++ [{
            endPoint
            buffer := some buffer
            disconnected := false
            disposedValue := false
            delivered := [buffer]
            acceptedAt := s.datagrams.length
            disconnectedAt := none }]
          datagrams := s.datagrams ++ [(endPoint, buffer)] }
      else { s with datagrams := s.datagrams ++ [(endPoint, buffer)] }
  else s

def notifyClientDisconnect (c : UdpChannelClient E) (s : UdpChannelListener E) :
    UdpChannelListener E :=
  { s with clients := s.clients.erase c.endPoint }

/-- `Disconnect` of a client. -/
def disconnect (i : Nat) (s : UdpChannelListener E) : UdpChannelListener E :=
  match s.objects[i]? with
  | none => s
  | some c =>
    if c.disconnected then s
    else notifyClientDisconnect c { s with
      objects := s.objects.modify i fun c => { c with
        disconnected := true
        disconnectedAt := some s.datagrams.length } }

/-- `Dispose` of a client. -/
def disposeClient (i : Nat) (s : UdpChannelListener E) : UdpChannelListener E :=
  match s.objects[i]? with
  | none => s
  | some c =>
    if c.disposedValue then s
    else
      let s := disconnect i s
      { s with objects := s.objects.modify i fun c => { c with
          buffer := none
          disposedValue := true } }

def cancel (s : UdpChannelListener E) : UdpChannelListener E :=
  { s with loops := 0, cancelled := true }

def dispose (s : UdpChannelListener E) : UdpChannelListener E :=
  if s.disposedValue then s
  else
    let s := { cancel s with accepted := false }
    let s := s.clients.entries.foldl (fun s pair => disposeClient pair.2 s) s
    { s with clients := ∅, disposedValue := true }

def next : UdpAction E → UdpChannelListener E → UdpChannelListener E
  | .listen => listen
  | .received endPoint buffer returns => received endPoint buffer returns
  | .subscribe => fun s => { s with accepted := true }
  | .unsubscribe => fun s => { s with accepted := false }
  | .disconnect i => disconnect i
  | .disposeClient i => disposeClient i
  | .cancel => cancel
  | .dispose => dispose

/-- What a loop of `ListenAsync` gets from an action. -/
def listened : UdpAction E → UdpChannelListener E → List (E × List UInt8)
  | .received endPoint buffer _, s => if 0 < s.loops then [(endPoint, buffer)] else []
  | _, _ => []

/-- The datagrams that are received while a loop of `ListenAsync` runs. -/
def receivedDatagrams : List (UdpAction E) → UdpChannelListener E → List (E × List UInt8)
  | [], _ => []
  | a :: actions, s => listened a s ++ receivedDatagrams actions (next a s)

/-- The datagrams from the endpoint of a client between its acceptance and its disconnection. -/
def between (datagrams : List (E × List UInt8)) (c : UdpChannelClient E) : List (List UInt8) :=
  (((datagrams.take (c.disconnectedAt.getD datagrams.length)).drop c.acceptedAt).filter
    (·.1 = c.endPoint)).map (·.2)

/-- The map has exactly the clients that are not disconnected, each under its endpoint, and each
client was given exactly the datagrams that were meant for it. -/
structure Demultiplexes (s : UdpChannelListener E) : Prop where
  mapped : ∀ endPoint i, s.clients.lookup endPoint = some i →
    ∃ c, s.objects[i]? = some c ∧ c.endPoint = endPoint ∧ c.disconnected = false
  live : ∀ (i : Nat) (c : UdpChannelClient E), s.objects[i]? = some c → c.disconnected = false →
    s.clients.lookup c.endPoint = some i
  unique : ∀ (i j : Nat) (c d : UdpChannelClient E), s.objects[i]? = some c →
    s.objects[j]? = some d → c.disconnected = false → d.disconnected = false →
    c.endPoint = d.endPoint → i = j
  delivered : ∀ c ∈ s.objects, c.delivered = between s.datagrams c

/-- What the history of a client says about it. -/
structure Dated (datagrams : List (E × List UInt8)) (c : UdpChannelClient E) : Prop where
  connected : c.disconnected = false → c.disconnectedAt = none
  disconnected : c.disconnected = true → ∃ n, n ≤ datagrams.length ∧ c.disconnectedAt = some n
  disposed : c.disposedValue = true → c.disconnected = true
  accepted : c.acceptedAt ≤ datagrams.length
  delivered : c.delivered = between datagrams c

/-- The map and the objects refer to one another, and every object has a history. -/
structure Consistent (s : UdpChannelListener E) : Prop where
  mapped : ∀ endPoint i, s.clients.lookup endPoint = some i →
    ∃ c, s.objects[i]? = some c ∧ c.endPoint = endPoint ∧ c.disconnected = false
  live : ∀ (i : Nat) (c : UdpChannelClient E), s.objects[i]? = some c → c.disconnected = false →
    s.clients.lookup c.endPoint = some i
  dated : ∀ (i : Nat) (c : UdpChannelClient E), s.objects[i]? = some c → Dated s.datagrams c

variable {s t : UdpChannelListener E} {c d : UdpChannelClient E}
  {datagrams : List (E × List UInt8)}

theorem Consistent.separates (h : Consistent s) : Demultiplexes s where
  mapped := h.mapped
  live := h.live
  unique := by
    intro i j c d hc hd hlive hlive' hsame
    have hi := h.live i c hc hlive
    have hj := h.live j d hd hlive'
    rw [hsame, hj] at hi
    exact (Option.some.inj hi).symm
  delivered := by
    intro c hc
    obtain ⟨i, hi⟩ := List.mem_iff_getElem?.1 hc
    exact (h.dated i c hi).delivered

theorem consistent_new : Consistent (new : UdpChannelListener E) where
  mapped := nofun
  live := nofun
  dated := nofun

theorem getElem?_modify_eq_some {xs : List α} {f : α → α} (h : (xs.modify i f)[j]? = some b) :
    ∃ a, xs[j]? = some a ∧ b = if i = j then f a else a := by
  rw [List.getElem?_modify] at h
  obtain ⟨a, ha, hb⟩ := Option.map_eq_some_iff.1 h
  exact ⟨a, ha, hb.symm⟩

theorem getElem?_concat_ge {xs : List α} (hle : xs.length ≤ i) (h : (xs ++ [a])[i]? = some b) :
    i = xs.length ∧ b = a := by
  have hi : i = xs.length := by
    have hlt := (List.getElem?_eq_some_iff.1 h).1
    rw [List.length_append] at hlt
    exact Nat.le_antisymm (Nat.le_of_lt_succ hlt) hle
  subst hi
  rw [List.getElem?_concat_length] at h
  exact ⟨rfl, (Option.some.inj h).symm⟩

theorem Dated.skip {endPoint : E} (h : Dated datagrams c)
    (hskip : c.disconnected = false → endPoint ≠ c.endPoint) (buffer : List UInt8) :
    Dated (datagrams ++ [(endPoint, buffer)]) c where
  connected := h.connected
  disconnected := by
    intro hdisconnected
    obtain ⟨n, hn, hat⟩ := h.disconnected hdisconnected
    exact ⟨n, by rw [List.length_append]; omega, hat⟩
  disposed := h.disposed
  accepted := by
    have haccepted := h.accepted
    rw [List.length_append]
    omega
  delivered := by
    rw [h.delivered, between, between]
    cases hdisconnected : c.disconnected with
    | true =>
      obtain ⟨n, hn, hat⟩ := h.disconnected hdisconnected
      rw [hat, Option.getD_some, Option.getD_some, List.take_append_of_le_length hn]
    | false =>
      rw [h.connected hdisconnected, Option.getD_none, Option.getD_none, List.take_length,
        List.take_length, List.drop_append_of_le_length h.accepted, List.filter_append]
      simp only [List.filter_cons, hskip hdisconnected, decide_false, Bool.false_eq_true, if_false,
        List.filter_nil, List.append_nil]

theorem Dated.notifyReceived (h : Dated datagrams c) (hlive : c.disconnected = false)
    (buffer : List UInt8) :
    Dated (datagrams ++ [(c.endPoint, buffer)]) (c.notifyReceived buffer) := by
  have hnotify : c.notifyReceived buffer =
      { c with buffer := some buffer, delivered := c.delivered ++ [buffer] } := by
    rw [UdpChannelClient.notifyReceived, hlive, if_neg Bool.false_ne_true]
  have haccepted := h.accepted
  rw [hnotify]
  refine ⟨h.connected, ?_, h.disposed, ?_, ?_⟩
  · intro hdisconnected
    cases hlive.symm.trans hdisconnected
  · rw [List.length_append]
    dsimp only
    omega
  · rw [between]
    dsimp only
    rw [h.delivered, between, h.connected hlive, Option.getD_none, Option.getD_none,
      List.take_length, List.take_length, List.drop_append_of_le_length haccepted,
      List.filter_append, List.map_append]
    simp only [List.filter_cons, decide_true, if_true, List.filter_nil, List.map_cons, List.map_nil]

theorem Consistent.notifyReceived {endPoint : E} (h : Consistent s)
    (hlookup : s.clients.lookup endPoint = some i) (buffer : List UInt8) (loops : Nat) :
    Consistent { s with
      loops
      objects := s.objects.modify i (·.notifyReceived buffer)
      datagrams := s.datagrams ++ [(endPoint, buffer)] } := by
  have hkept : ∀ {j : Nat} {d' : UdpChannelClient E},
      (s.objects.modify i (·.notifyReceived buffer))[j]? = some d' →
      ∃ d, s.objects[j]? = some d ∧ d'.endPoint = d.endPoint ∧ d'.disconnected = d.disconnected ∧
        d' = if i = j then d.notifyReceived buffer else d := by
    intro j d' hd'
    obtain ⟨d, hd, rfl⟩ := getElem?_modify_eq_some hd'
    split
    · exact ⟨d, hd, d.endPoint_notifyReceived _, d.disconnected_notifyReceived _, rfl⟩
    · exact ⟨d, hd, rfl, rfl, rfl⟩
  refine ⟨?_, ?_, ?_⟩
  · intro endPoint' j hj
    obtain ⟨c, hc, hendPoint, hlive⟩ := h.mapped endPoint' j hj
    have hc' : (s.objects.modify i (·.notifyReceived buffer))[j]? =
        some (if i = j then c.notifyReceived buffer else c) := by
      rw [List.getElem?_modify, hc]
      rfl
    obtain ⟨d, hd, hsame, hsame', _⟩ := hkept hc'
    cases hc.symm.trans hd
    exact ⟨_, hc', hsame.trans hendPoint, hsame'.trans hlive⟩
  · intro j d' hd' hlive
    obtain ⟨d, hd, hsame, hsame', _⟩ := hkept hd'
    rw [hsame]
    exact h.live j d hd (hsame'.symm.trans hlive)
  · intro j d' hd'
    obtain ⟨d, hd, _, _, rfl⟩ := hkept hd'
    obtain ⟨c, hc, hendPoint, hlive⟩ := h.mapped endPoint i hlookup
    subst hendPoint
    split
    · rename_i hij
      subst hij
      cases hc.symm.trans hd
      exact (h.dated i d hd).notifyReceived hlive buffer
    · rename_i hij
      apply (h.dated j d hd).skip
      intro hdlive hsame
      have hj := h.live j d hd hdlive
      rw [← hsame, hlookup] at hj
      exact hij (Option.some.inj hj)

theorem dated_accepted (datagrams : List (E × List UInt8)) (endPoint : E) (buffer : List UInt8) :
    Dated (datagrams ++ [(endPoint, buffer)]) {
      endPoint
      buffer := some buffer
      disconnected := false
      disposedValue := false
      delivered := [buffer]
      acceptedAt := datagrams.length
      disconnectedAt := none } where
  connected := fun _ => rfl
  disconnected := nofun
  disposed := nofun
  accepted := by
    rw [List.length_append]
    exact Nat.le_add_right _ _
  delivered := by
    rw [between]
    dsimp only
    rw [Option.getD_none, List.take_length, List.drop_left]
    simp only [List.filter_cons, decide_true, if_true, List.filter_nil, List.map_cons, List.map_nil]

theorem Consistent.accept {endPoint : E} (h : Consistent s)
    (hlookup : s.clients.lookup endPoint = none) (buffer : List UInt8) (loops : Nat) :
    Consistent { s with
      loops
      clients := s.clients.insert endPoint s.objects.length
      objects := s.objects ++ [{
        endPoint
        buffer := some buffer
        disconnected := false
        disposedValue := false
        delivered := [buffer]
        acceptedAt := s.datagrams.length
        disconnectedAt := none }]
      datagrams := s.datagrams ++ [(endPoint, buffer)] } := by
  have hother : ∀ {j : Nat} {d : UdpChannelClient E}, s.objects[j]? = some d →
      d.disconnected = false → endPoint ≠ d.endPoint := by
    intro j d hd hlive hsame
    have hj := h.live j d hd hlive
    rw [← hsame, hlookup] at hj
    cases hj
  refine ⟨?_, ?_, ?_⟩
  · intro endPoint' j hj
    by_cases hsame : endPoint' = endPoint
    · subst hsame
      rw [AList.lookup_insert] at hj
      cases hj
      exact ⟨_, List.getElem?_concat_length, rfl, rfl⟩
    · rw [AList.lookup_insert_ne hsame] at hj
      obtain ⟨c, hc, hendPoint, hlive⟩ := h.mapped endPoint' j hj
      have hlt := (List.getElem?_eq_some_iff.1 hc).1
      exact ⟨c, (List.getElem?_append_left hlt).trans hc, hendPoint, hlive⟩
  · intro j d hd hlive
    rcases Nat.lt_or_ge j s.objects.length with hlt | hle
    · rw [List.getElem?_append_left hlt] at hd
      rw [AList.lookup_insert_ne (hother hd hlive).symm]
      exact h.live j d hd hlive
    · obtain ⟨rfl, rfl⟩ := getElem?_concat_ge hle hd
      exact AList.lookup_insert _
  · intro j d hd
    rcases Nat.lt_or_ge j s.objects.length with hlt | hle
    · rw [List.getElem?_append_left hlt] at hd
      exact (h.dated j d hd).skip (hother hd) buffer
    · obtain ⟨rfl, rfl⟩ := getElem?_concat_ge hle hd
      exact dated_accepted s.datagrams endPoint buffer

theorem Consistent.received (h : Consistent s) (endPoint : E) (buffer : List UInt8)
    (returns : Bool) : Consistent (received endPoint buffer returns s) := by
  unfold UdpChannelListener.received
  split
  · split
    · rename_i i hlookup
      exact h.notifyReceived hlookup buffer _
    · rename_i hlookup
      split
      · exact h.accept hlookup buffer _
      · refine ⟨h.mapped, h.live, ?_⟩
        intro j d hd
        apply (h.dated j d hd).skip
        intro hlive hsame
        have hj := h.live j d hd hlive
        rw [← hsame, hlookup] at hj
        cases hj
  · exact h

theorem Dated.disconnect (h : Dated datagrams c) (hlive : c.disconnected = false) :
    Dated datagrams { c with
      disconnected := true
      disconnectedAt := some datagrams.length } where
  connected := nofun
  disconnected := fun _ => ⟨datagrams.length, Nat.le_refl _, rfl⟩
  disposed := fun _ => rfl
  accepted := h.accepted
  delivered := by
    have hdelivered := h.delivered
    rw [between, h.connected hlive] at hdelivered
    exact hdelivered

theorem disconnect_live (hc : s.objects[i]? = some c) (hlive : c.disconnected = false) :
    disconnect i s = { s with
      clients := s.clients.erase c.endPoint
      objects := s.objects.modify i fun c => { c with
        disconnected := true
        disconnectedAt := some s.datagrams.length } } := by
  simp only [disconnect, hc, hlive, Bool.false_eq_true, if_false, notifyClientDisconnect]

theorem disconnect_disconnected (hc : s.objects[i]? = some c)
    (hdisconnected : c.disconnected = true) :
    disconnect i s = s := by
  simp only [disconnect, hc, hdisconnected, if_true]

theorem disconnect_none (hc : s.objects[i]? = none) : disconnect i s = s := by
  simp only [disconnect, hc]

theorem Consistent.disconnect (h : Consistent s) (i : Nat) : Consistent (disconnect i s) := by
  cases hc : s.objects[i]? with
  | none => rwa [disconnect_none hc]
  | some c =>
    cases hlive : c.disconnected with
    | true => rwa [disconnect_disconnected hc hlive]
    | false =>
      rw [disconnect_live hc hlive]
      have hi := h.live i c hc hlive
      refine ⟨?_, ?_, ?_⟩
      · intro endPoint j hj
        have hother : endPoint ≠ c.endPoint := by
          rintro rfl
          rw [AList.lookup_erase] at hj
          cases hj
        rw [AList.lookup_erase_ne hother] at hj
        obtain ⟨d, hd, rfl, hlive'⟩ := h.mapped endPoint j hj
        have hij : i ≠ j := by
          rintro rfl
          cases hc.symm.trans hd
          exact hother rfl
        exact ⟨d, (List.getElem?_modify_ne _ _ hij).trans hd, rfl, hlive'⟩
      · intro j d' hd' hlive'
        obtain ⟨d, hd, rfl⟩ := getElem?_modify_eq_some hd'
        by_cases hij : i = j
        · rw [if_pos hij] at hlive'
          cases hlive'
        · rw [if_neg hij] at hlive' ⊢
          have hj := h.live j d hd hlive'
          have hother : d.endPoint ≠ c.endPoint := by
            intro hsame
            rw [hsame, hi] at hj
            exact hij (Option.some.inj hj)
          rwa [AList.lookup_erase_ne hother]
      · intro j d' hd'
        obtain ⟨d, hd, rfl⟩ := getElem?_modify_eq_some hd'
        by_cases hij : i = j
        · subst hij
          cases hc.symm.trans hd
          rw [if_pos rfl]
          exact (h.dated i c hc).disconnect hlive
        · rw [if_neg hij]
          exact h.dated j d hd

theorem getElem?_disconnect (hc : s.objects[i]? = some c) :
    ∃ d, (disconnect i s).objects[i]? = some d ∧ d.disconnected = true := by
  cases hlive : c.disconnected with
  | true => exact ⟨c, by rwa [disconnect_disconnected hc hlive], hlive⟩
  | false =>
    rw [disconnect_live hc hlive]
    dsimp only
    rw [List.getElem?_modify_eq, hc]
    exact ⟨_, rfl, rfl⟩

theorem Consistent.forget (h : Consistent s) (hc : s.objects[i]? = some c)
    (hdisconnected : c.disconnected = true) :
    Consistent { s with objects := s.objects.modify i fun c => { c with
      buffer := none
      disposedValue := true } } := by
  refine ⟨?_, ?_, ?_⟩
  · intro endPoint j hj
    obtain ⟨d, hd, hendPoint, hlive⟩ := h.mapped endPoint j hj
    have hij : i ≠ j := by
      rintro rfl
      cases hc.symm.trans hd
      cases hdisconnected.symm.trans hlive
    exact ⟨d, (List.getElem?_modify_ne _ _ hij).trans hd, hendPoint, hlive⟩
  · intro j d' hd' hlive
    obtain ⟨d, hd, rfl⟩ := getElem?_modify_eq_some hd'
    split at hlive
    · rename_i hij
      rw [if_pos hij]
      exact h.live j d hd hlive
    · rename_i hij
      rw [if_neg hij]
      exact h.live j d hd hlive
  · intro j d' hd'
    obtain ⟨d, hd, rfl⟩ := getElem?_modify_eq_some hd'
    have hdated := h.dated j d hd
    by_cases hij : i = j
    · subst hij
      cases hc.symm.trans hd
      rw [if_pos rfl]
      exact ⟨hdated.connected, hdated.disconnected, fun _ => hdisconnected, hdated.accepted,
        hdated.delivered⟩
    · rwa [if_neg hij]

theorem Consistent.disposeClient (h : Consistent s) (i : Nat) :
    Consistent (disposeClient i s) := by
  cases hc : s.objects[i]? with
  | none => simpa only [UdpChannelListener.disposeClient, hc] using h
  | some c =>
    cases hdisposed : c.disposedValue with
    | true => simpa only [UdpChannelListener.disposeClient, hc, hdisposed, if_true] using h
    | false =>
      obtain ⟨d, hd, hdisconnected⟩ := getElem?_disconnect hc
      have hforget := (h.disconnect i).forget hd hdisconnected
      simpa only [UdpChannelListener.disposeClient, hc, hdisposed, Bool.false_eq_true, if_false]
        using hforget

theorem clients_disposeClient_disconnected (hc : s.objects[i]? = some c)
    (hdisconnected : c.disconnected = true) : (disposeClient i s).clients = s.clients := by
  cases hdisposed : c.disposedValue with
  | true => simp only [disposeClient, hc, hdisposed, if_true]
  | false =>
    simp only [disposeClient, hc, hdisposed, Bool.false_eq_true, if_false,
      disconnect_disconnected hc hdisconnected]

theorem clients_disposeClient_live (hc : s.objects[i]? = some c) (hlive : c.disconnected = false)
    (hdisposed : c.disposedValue = false) :
    (disposeClient i s).clients = s.clients.erase c.endPoint := by
  simp only [disposeClient, hc, hdisposed, Bool.false_eq_true, if_false, disconnect_live hc hlive]

/-- After a client is disposed, the map is what it was without this client. -/
theorem Consistent.lookup_disposeClient {endPoint : E} (h : Consistent s)
    (hlookup : (UdpChannelListener.disposeClient i s).clients.lookup endPoint = some j) :
    s.clients.lookup endPoint = some j ∧ j ≠ i := by
  by_cases hlive : ∃ c, s.objects[i]? = some c ∧ c.disconnected = false
  · obtain ⟨c, hc, hlive⟩ := hlive
    have hdisposed : c.disposedValue = false := by
      cases hdisposed : c.disposedValue with
      | false => rfl
      | true => cases hlive.symm.trans ((h.dated i c hc).disposed hdisposed)
    rw [clients_disposeClient_live hc hlive hdisposed] at hlookup
    have hother : endPoint ≠ c.endPoint := by
      rintro rfl
      rw [AList.lookup_erase] at hlookup
      cases hlookup
    rw [AList.lookup_erase_ne hother] at hlookup
    refine ⟨hlookup, ?_⟩
    rintro rfl
    obtain ⟨d, hd, hendPoint, _⟩ := h.mapped endPoint j hlookup
    cases hc.symm.trans hd
    exact hother hendPoint.symm
  · have hclients : (UdpChannelListener.disposeClient i s).clients = s.clients := by
      cases hc : s.objects[i]? with
      | none => simp only [UdpChannelListener.disposeClient, hc]
      | some c =>
        cases hdisconnected : c.disconnected with
        | true => exact clients_disposeClient_disconnected hc hdisconnected
        | false => exact absurd ⟨c, hc, hdisconnected⟩ hlive
    rw [hclients] at hlookup
    refine ⟨hlookup, ?_⟩
    rintro rfl
    obtain ⟨d, hd, _, hlive'⟩ := h.mapped endPoint j hlookup
    exact hlive ⟨d, hd, hlive'⟩

/-- What the loop of `Dispose` over some entries of the map leaves. -/
theorem Consistent.disposeClients (h : Consistent s) (entries : List (Sigma fun _ : E => Nat)) :
    let t := entries.foldl (fun s pair => UdpChannelListener.disposeClient pair.2 s) s
    Consistent t ∧ ∀ endPoint i, t.clients.lookup endPoint = some i →
      s.clients.lookup endPoint = some i ∧ ∀ pair ∈ entries, i ≠ pair.2 := by
  induction entries generalizing s with
  | nil => exact ⟨h, fun endPoint i hi => ⟨hi, nofun⟩⟩
  | cons pair entries ih =>
    obtain ⟨hconsistent, hleft⟩ := ih (h.disposeClient pair.2)
    refine ⟨hconsistent, ?_⟩
    intro endPoint i hi
    obtain ⟨hi', hentries⟩ := hleft endPoint i hi
    obtain ⟨hi'', hpair⟩ := h.lookup_disposeClient hi'
    exact ⟨hi'', List.forall_mem_cons.2 ⟨hpair, hentries⟩⟩

theorem Consistent.dispose (h : Consistent s) : Consistent (dispose s) := by
  cases hdisposed : s.disposedValue with
  | true => simpa only [UdpChannelListener.dispose, hdisposed, if_true] using h
  | false =>
    have hcancelled : Consistent { cancel s with accepted := false } := ⟨h.mapped, h.live, h.dated⟩
    obtain ⟨hconsistent, hleft⟩ := hcancelled.disposeClients s.clients.entries
    simp only [UdpChannelListener.dispose, hdisposed, Bool.false_eq_true, if_false]
    refine ⟨nofun, ?_, hconsistent.dated⟩
    intro i c hc hlive
    -- a client that is left would be in the map, and the loop went through its entry
    obtain ⟨hi, hentries⟩ := hleft c.endPoint i (hconsistent.live i c hc hlive)
    exact absurd rfl (hentries ⟨c.endPoint, i⟩ (AList.mem_lookup_iff.1 hi))

theorem datagrams_disconnect (i : Nat) (s : UdpChannelListener E) :
    (disconnect i s).datagrams = s.datagrams := by
  cases hc : s.objects[i]? with
  | none => rw [disconnect_none hc]
  | some c =>
    cases hlive : c.disconnected with
    | true => rw [disconnect_disconnected hc hlive]
    | false => rw [disconnect_live hc hlive]

theorem datagrams_disposeClient (i : Nat) (s : UdpChannelListener E) :
    (disposeClient i s).datagrams = s.datagrams := by
  unfold disposeClient
  split
  · rfl
  · split
    · rfl
    · exact datagrams_disconnect i s

theorem datagrams_dispose (s : UdpChannelListener E) : (dispose s).datagrams = s.datagrams := by
  have hloop (entries : List (Sigma fun _ : E => Nat)) (s : UdpChannelListener E) :
      (entries.foldl (fun s pair => disposeClient pair.2 s) s).datagrams = s.datagrams := by
    induction entries generalizing s with
    | nil => rfl
    | cons pair entries ih => exact (ih _).trans (datagrams_disposeClient pair.2 s)
  unfold dispose
  split
  · rfl
  · exact hloop s.clients.entries _

theorem datagrams_next (a : UdpAction E) (s : UdpChannelListener E) :
    (next a s).datagrams = s.datagrams ++ listened a s := by
  cases a with
  | received endPoint buffer returns =>
    rw [next, received, listened]
    split
    · split
      · rfl
      · split
        · rfl
        · rfl
    · exact (List.append_nil _).symm
  | listen =>
    have hlisten : (listen s).datagrams = s.datagrams := by
      unfold listen
      split
      · rfl
      · rfl
    exact hlisten.trans (List.append_nil _).symm
  | disconnect i => exact (datagrams_disconnect i s).trans (List.append_nil _).symm
  | disposeClient i => exact (datagrams_disposeClient i s).trans (List.append_nil _).symm
  | dispose => exact (datagrams_dispose s).trans (List.append_nil _).symm
  | subscribe | unsubscribe | cancel => exact (List.append_nil _).symm

theorem datagrams_runTotal (actions : List (UdpAction E)) (s : UdpChannelListener E) :
    (runTotal next actions s).datagrams = s.datagrams ++ receivedDatagrams actions s := by
  induction actions generalizing s with
  | nil => exact (List.append_nil _).symm
  | cons a actions ih =>
    have hrest : (runTotal next (a :: actions) s).datagrams =
        (next a s).datagrams ++ receivedDatagrams actions (next a s) := ih (next a s)
    rw [hrest, datagrams_next, receivedDatagrams, List.append_assoc]

theorem Consistent.next (h : Consistent s) (a : UdpAction E) : Consistent (next a s) := by
  cases a with
  | listen =>
    rw [UdpChannelListener.next, listen]
    split
    · exact h
    · exact ⟨h.mapped, h.live, h.dated⟩
  | received endPoint buffer returns => exact h.received endPoint buffer returns
  | subscribe => exact ⟨h.mapped, h.live, h.dated⟩
  | unsubscribe => exact ⟨h.mapped, h.live, h.dated⟩
  | disconnect i => exact h.disconnect i
  | disposeClient i => exact h.disposeClient i
  | cancel => exact ⟨h.mapped, h.live, h.dated⟩
  | dispose => exact h.dispose

theorem consistent_runTotal (actions : List (UdpAction E)) :
    Consistent (runTotal next actions new) :=
  runTotal_invariant (fun a _ h => h.next a) consistent_new

end UdpChannelListener

end AcOpenServer

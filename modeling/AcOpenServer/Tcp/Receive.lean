import AcOpenServer.SVFW.Packet

namespace AcOpenServer
open Library
set_option autoImplicit true

/-- The owner of a `NetTcpClient`, with the callback it has subscribed to `Received`. -/
structure TcpOwner (σ : Type) where
  tcp : σ → NetTcpClient
  setTcp : NetTcpClient → σ → σ
  received : Nat → EStateM Exn σ Unit
  tcp_set : ∀ client s, tcp (setTcp client s) = client

/-- A packet client calls `OnReceived` for what its `NetTcpClient` has received. -/
def SVFWPacketClient.tcpOwner (beyond : Nat → UInt8) : TcpOwner SVFWPacketClient where
  tcp := (·.client)
  setTcp := fun client c => { c with client }
  received := onReceived beyond
  tcp_set := fun _ _ => rfl

/-- The loop of `NetTcpClient.ReceiveAsync`, before a pass: the bytes the peer sends before it
closes that have not been read, and for each read so far the length of `Buffer` and what
`ReadAsync` returned. -/
structure ReceiveLoop (σ : Type) where
  owner : σ
  stream : List UInt8
  reads : List (Nat × Nat)
  ended : Bool
  deriving DecidableEq, Repr

namespace ReceiveLoop

def start (owner : σ) (stream : List UInt8) : ReceiveLoop σ := ⟨owner, stream, [], false⟩

/-- How many bytes `ReadAsync` returns: some, but no more than fit the buffer or are left; `cut`
is how the network has segmented the stream. -/
def readAsync (cut : Nat) (buffer stream : List UInt8) : Nat :=
  min (max 1 cut) (min buffer.length stream.length)

variable (o : TcpOwner σ)

/-- The owner when a read has stored the next bytes of the stream. -/
def filled (received : Nat) (stream : List UInt8) (owner : σ) : σ :=
  o.setTcp ((o.tcp owner).fill (stream.take received)) owner

/-- A pass through the loop; `TcpClient.Connected` is true until the client is disposed of. -/
def pass (cut : Nat) (s : ReceiveLoop σ) : ReceiveLoop σ :=
  if s.ended then s
  else if (o.tcp s.owner).disposedValue then { s with ended := true }
  else
    match (o.tcp s.owner).buffer with
    | none => s
    | some buffer =>
      let received := readAsync cut buffer s.stream
      let s := { s with
        owner := filled o received s.stream s.owner
        stream := s.stream.drop received
        reads := s.reads ++ [(buffer.length, received)] }
      if received > 0 then
        match (o.received received).run s.owner with
        | .ok _ owner => { s with owner }
        | .error _ owner => { s with owner, ended := true }
      else s

def passes (cuts : Nat → Nat) : Nat → ReceiveLoop σ → ReceiveLoop σ
  | 0, s => s
  | n + 1, s => passes (fun k => cuts (k + 1)) n (pass o (cuts 0) s)

/-- A read that returned zero bytes into a buffer with room is the last one, and the loop ends. -/
structure StopsAtEnd (cuts : Nat → Nat) (s : ReceiveLoop σ) : Prop where
  last : ∀ n i length, (passes o cuts n s).reads[i]? = some (length, 0) → 0 < length →
    (passes o cuts n s).reads.length = i + 1
  ends : ∃ n, (passes o cuts n s).ended = true

/-- The callback disposes of the client, or throws, while it handles one of the segments of the
stream. -/
inductive ClosesInTime : (Nat → Nat) → σ → List UInt8 → Prop
  | disposed {owner : σ} {stream : List UInt8} (disposed : (o.tcp owner).disposedValue = true) :
      ClosesInTime cuts owner stream
  | threw {owner owner' : σ} {stream : List UInt8} (connected : (o.tcp owner).disposedValue = false)
      (hasBuffer : (o.tcp owner).buffer = some buffer)
      (more : 0 < readAsync (cuts 0) buffer stream)
      (handled : (o.received (readAsync (cuts 0) buffer stream)).run
        (filled o (readAsync (cuts 0) buffer stream) stream owner) = .error e owner') :
      ClosesInTime cuts owner stream
  | handled {owner owner' : σ} {stream : List UInt8}
    (connected : (o.tcp owner).disposedValue = false)
      (hasBuffer : (o.tcp owner).buffer = some buffer)
      (more : 0 < readAsync (cuts 0) buffer stream)
      (handled : (o.received (readAsync (cuts 0) buffer stream)).run
        (filled o (readAsync (cuts 0) buffer stream) stream owner) = .ok () owner')
      (rest : ClosesInTime (fun k => cuts (k + 1)) owner'
        (stream.drop (readAsync (cuts 0) buffer stream))) :
      ClosesInTime cuts owner stream

variable {o : TcpOwner σ} {cuts : Nat → Nat} {s : ReceiveLoop σ} {owner owner' : σ}
  {stream buffer : List UInt8}

theorem pass_of_ended (h : s.ended = true) (cut : Nat) : pass o cut s = s := if_pos h

theorem passes_of_ended (h : s.ended = true) (n : Nat) : passes o cuts n s = s := by
  induction n generalizing cuts with
  | zero => rfl
  | succ n ih => rw [passes, pass_of_ended h, ih]

theorem pass_of_disposed (h : s.ended = false) (hdisposed : (o.tcp s.owner).disposedValue = true)
    (cut : Nat) : pass o cut s = { s with ended := true } := by
  rw [pass, h, if_neg Bool.false_ne_true, if_pos hdisposed]

theorem pass_of_none (h : s.ended = false) (hopen : (o.tcp s.owner).disposedValue = false)
    (hbuffer : (o.tcp s.owner).buffer = none) (cut : Nat) : pass o cut s = s := by
  rw [pass, h, hopen, if_neg Bool.false_ne_true, if_neg Bool.false_ne_true, hbuffer]

theorem pass_of_zero (h : s.ended = false) (hopen : (o.tcp s.owner).disposedValue = false)
    (hbuffer : (o.tcp s.owner).buffer = some buffer)
    (hzero : readAsync cut buffer s.stream = 0) : pass o cut s =
      { s with
        owner := filled o 0 s.stream s.owner
        reads := s.reads ++ [(buffer.length, 0)] } := by
  rw [pass, h, hopen, if_neg Bool.false_ne_true, if_neg Bool.false_ne_true, hbuffer]
  dsimp only
  rw [hzero, if_neg (Nat.lt_irrefl 0), List.drop_zero]

theorem pass_of_ok (h : s.ended = false) (hopen : (o.tcp s.owner).disposedValue = false)
    (hbuffer : (o.tcp s.owner).buffer = some buffer)
    (hmore : 0 < readAsync cut buffer s.stream)
    (hrun : (o.received (readAsync cut buffer s.stream)).run
      (filled o (readAsync cut buffer s.stream) s.stream s.owner) = .ok () owner) :
    pass o cut s = { s with
      owner
      stream := s.stream.drop (readAsync cut buffer s.stream)
      reads := s.reads ++ [(buffer.length, readAsync cut buffer s.stream)] } := by
  rw [pass, h, hopen, if_neg Bool.false_ne_true, if_neg Bool.false_ne_true, hbuffer]
  dsimp only
  rw [if_pos hmore, hrun]

theorem pass_of_error (h : s.ended = false) (hopen : (o.tcp s.owner).disposedValue = false)
    (hbuffer : (o.tcp s.owner).buffer = some buffer)
    (hmore : 0 < readAsync cut buffer s.stream)
    (hrun : (o.received (readAsync cut buffer s.stream)).run
      (filled o (readAsync cut buffer s.stream) s.stream s.owner) = .error e owner) :
    pass o cut s = { s with
      owner
      stream := s.stream.drop (readAsync cut buffer s.stream)
      reads := s.reads ++ [(buffer.length, readAsync cut buffer s.stream)]
      ended := true } := by
  rw [pass, h, hopen, if_neg Bool.false_ne_true, if_neg Bool.false_ne_true, hbuffer]
  dsimp only
  rw [if_pos hmore, hrun]

theorem tcp_filled_zero (o : TcpOwner σ) (stream : List UInt8) (owner : σ) :
    o.tcp (filled o 0 stream owner) = o.tcp owner := by
  rw [filled, o.tcp_set, List.take_zero, NetTcpClient.fill]
  cases h : (o.tcp owner).buffer with
  | none => rw [Option.map_none, ← h]
  | some buffer =>
    rw [Option.map_some, List.nil_append, List.length_nil, List.drop_zero, ← h]

/-- Once a read has returned zero bytes the next passes do the same. -/
theorem ended_of_zero (h : s.ended = false) (hopen : (o.tcp s.owner).disposedValue = false)
    (hbuffer : (o.tcp s.owner).buffer = some buffer) (hlength : buffer.length = 0 ∨ s.stream = [])
    (n : Nat) : (passes o cuts n s).ended = false ∧
      (passes o cuts n s).reads = s.reads ++ List.replicate n (buffer.length, 0) := by
  have hzero : ∀ cut, readAsync cut buffer s.stream = 0 := by
    intro cut
    rw [readAsync]
    rcases hlength with hlength | hstream
    · omega
    · rw [hstream, List.length_nil]
      omega
  induction n generalizing cuts s with
  | zero => exact ⟨h, (List.append_nil _).symm⟩
  | succ n ih =>
    rw [passes, pass_of_zero h hopen hbuffer (hzero _)]
    have htcp := tcp_filled_zero o s.stream s.owner
    obtain ⟨hended, hreads⟩ := @ih (fun k => cuts (k + 1))
      { s with
        owner := filled o 0 s.stream s.owner
        reads := s.reads ++ [(buffer.length, 0)] }
      h (by rw [htcp, hopen]) (by rw [htcp, hbuffer]) hlength hzero
    refine ⟨hended, ?_⟩
    rw [hreads, List.append_assoc]
    rfl

theorem forall_append_read {reads : List (Nat × Nat)} (h : ∀ read ∈ reads, 0 < read.2)
    (hmore : 0 < received) (length : Nat) :
    ∀ read ∈ reads ++ [(length, received)], 0 < read.2 := by
  intro read hread
  rcases List.mem_append.1 hread with hread | hread
  · exact h read hread
  · cases List.mem_singleton.1 hread
    exact hmore

/-- If the callback closes the client in time, every read returns some bytes and the loop ends. -/
theorem ClosesInTime.stops (h : ClosesInTime o cuts owner stream)
    {reads : List (Nat × Nat)} (hreads : ∀ read ∈ reads, 0 < read.2) :
    (∀ n, ∀ read ∈ (passes o cuts n ⟨owner, stream, reads, false⟩).reads, 0 < read.2) ∧
      ∃ n, (passes o cuts n ⟨owner, stream, reads, false⟩).ended = true := by
  induction h generalizing reads with
  | disposed disposed =>
    constructor
    · intro n
      cases n with
      | zero => exact hreads
      | succ n =>
        rw [passes, pass_of_disposed rfl disposed, passes_of_ended rfl]
        exact hreads
    · refine ⟨1, ?_⟩
      rw [passes, pass_of_disposed rfl disposed, passes]
  | threw connected hasBuffer more handled =>
    have hpass := pass_of_error (s := ⟨_, _, reads, false⟩) rfl connected hasBuffer more handled
    constructor
    · intro n
      cases n with
      | zero => exact hreads
      | succ n =>
        rw [passes, hpass, passes_of_ended rfl]
        exact forall_append_read hreads more _
    · refine ⟨1, ?_⟩
      rw [passes, hpass, passes]
  | handled connected hasBuffer more handled rest ih =>
    have hpass := pass_of_ok (s := ⟨_, _, reads, false⟩) rfl connected hasBuffer more handled
    obtain ⟨hrest, n, hended⟩ := ih (forall_append_read hreads more _)
    constructor
    · intro n
      cases n with
      | zero => exact hreads
      | succ n =>
        rw [passes, hpass]
        exact hrest n
    · refine ⟨n + 1, ?_⟩
      rw [passes, hpass]
      exact hended

theorem not_stopsAtEnd_of_zero (hopen : (o.tcp s.owner).disposedValue = false)
    (hbuffer : (o.tcp s.owner).buffer = some buffer)
    (hzero : buffer.length = 0 ∨ s.stream = []) (hended : s.ended = false) :
    ¬ StopsAtEnd o cuts s := by
  intro h
  obtain ⟨n, hn⟩ := h.ends
  cases hn.symm.trans (ended_of_zero hended hopen hbuffer hzero n).1

theorem StopsAtEnd.pass (h : StopsAtEnd o cuts s) (hended : s.ended = false) :
    StopsAtEnd o (fun k => cuts (k + 1)) (ReceiveLoop.pass o (cuts 0) s) where
  last := fun n => h.last (n + 1)
  ends := by
    obtain ⟨n, hn⟩ := h.ends
    cases n with
    | zero => cases hended.symm.trans hn
    | succ n => exact ⟨n, hn⟩

theorem closesInTime_of_stops (hended : s.ended = false) (h : StopsAtEnd o cuts s) :
    ClosesInTime o cuts s.owner s.stream := by
  obtain ⟨n, hn⟩ := h.ends
  induction n generalizing s cuts with
  | zero => cases hended.symm.trans hn
  | succ n ih =>
    have hpass := h.pass hended
    rw [passes] at hn
    cases hopen : (o.tcp s.owner).disposedValue with
    | true => exact .disposed hopen
    | false =>
      cases hbuffer : (o.tcp s.owner).buffer with
      | none =>
        rw [pass_of_none hended hopen hbuffer] at hpass hn
        cases ih hended hpass hn with
        | disposed disposed => cases hopen.symm.trans disposed
        | threw connected hasBuffer => cases hbuffer.symm.trans hasBuffer
        | handled connected hasBuffer => cases hbuffer.symm.trans hasBuffer
      | some buffer =>
        by_cases hmore : 0 < readAsync (cuts 0) buffer s.stream
        · cases hrun : (o.received (readAsync (cuts 0) buffer s.stream)).run
            (filled o (readAsync (cuts 0) buffer s.stream) s.stream s.owner) with
          | ok a owner =>
            rw [pass_of_ok hended hopen hbuffer hmore hrun] at hpass hn
            exact .handled hopen hbuffer hmore hrun (ih (by exact hended) hpass hn)
          | error e owner => exact .threw hopen hbuffer hmore hrun
        · have hzero : buffer.length = 0 ∨ s.stream = [] := by
            rw [readAsync] at hmore
            rcases Nat.eq_zero_or_pos s.stream.length with hstream | hstream
            · exact .inr (List.length_eq_zero_iff.1 hstream)
            · exact .inl (by omega)
          exact (not_stopsAtEnd_of_zero hopen hbuffer hzero hended h).elim

/-- The loop stops at the end of the stream exactly when the callback closes the client before
that. -/
theorem stopsAtEnd_iff {σ : Type} (o : TcpOwner σ) (cuts : Nat → Nat) (owner : σ)
    (stream : List UInt8) :
    StopsAtEnd o cuts (start owner stream) ↔ ClosesInTime o cuts owner stream := by
  constructor
  · intro h
    exact closesInTime_of_stops rfl h
  · intro h
    have hnone : ∀ read ∈ ([] : List (Nat × Nat)), 0 < read.2 := nofun
    obtain ⟨hreads, hends⟩ := h.stops hnone
    refine ⟨?_, hends⟩
    intro n i length hi
    exact absurd (hreads n _ (List.mem_of_getElem? hi)) (Nat.lt_irrefl 0)

/-- A client whose callback does nothing reads at the end of the stream for ever, and so does an
`SVFWPacketClient` whose peer closes without having sent anything. -/
theorem reads_on_at_end :
    (¬ ∀ (σ : Type) (o : TcpOwner σ) (cuts : Nat → Nat) (owner : σ) (stream : List UInt8),
      (∀ received owner, ∃ owner', (o.received received).run owner = .ok () owner') →
      StopsAtEnd o cuts (start owner stream)) ∧
    ∀ (beyond : Nat → UInt8) (cuts : Nat → Nat) (isPrivateClient : Bool),
      ¬ StopsAtEnd (SVFWPacketClient.tcpOwner beyond) cuts
        (start (SVFWPacketClient.new (.accepted isPrivateClient)).startReceive []) := by
  constructor
  · intro h
    let o : TcpOwner NetTcpClient := ⟨id, fun client _ => client, fun _ => pure (), fun _ _ => rfl⟩
    have hstops := h NetTcpClient o (fun _ => 0)
      { NetTcpClient.accepted false with buffer := some [0] } [] (fun _ owner => ⟨owner, rfl⟩)
    exact not_stopsAtEnd_of_zero rfl rfl (.inr rfl) rfl hstops
  · intro beyond cuts isPrivateClient
    exact not_stopsAtEnd_of_zero rfl rfl (.inr rfl) rfl

end ReceiveLoop

end AcOpenServer

import AcOpenServer.Runtime

namespace AcOpenServer
open Library
set_option autoImplicit true

/-- The task `Stream.WriteAsync` returned, as it stands when it is returned. -/
inductive WriteTask where
  | completed
  | pending
  | faulted
  deriving DecidableEq, Repr

/-- Whether the task fails in the end; a pending one does when `late` says so. -/
def WriteTask.faults (late : Bool) : WriteTask → Bool
  | .completed => false
  | .pending => late
  | .faulted => true

/-- The state of `NetTcpClient`; `written` are the arrays given to `Stream.WriteAsync`. -/
structure NetTcpClient where
  buffer : Option (List UInt8)
  isPrivateClient : Bool
  disposedValue : Bool
  written : List (List UInt8)
  deriving DecidableEq, Repr

namespace NetTcpClient

/-- A client that was just accepted. -/
def accepted (isPrivateClient : Bool) : NetTcpClient where
  buffer := none
  isPrivateClient
  disposedValue := false
  written := []

/-- `write` is what the stream does: return a task, or throw when it is `none`. -/
def sendAsync (write : Option WriteTask) (buffer : List UInt8) :
    EStateM Exn NetTcpClient WriteTask := do
  if (← get).disposedValue then
    throw .objectDisposed
  else
    match write with
    | some task =>
      modify fun c => { c with written := c.written ++ [buffer] }
      return task
    | none => throw .io

/-- `Stream.ReadAsync(Buffer)` stores the bytes it read at the start of the buffer. -/
def fill (segment : List UInt8) (c : NetTcpClient) : NetTcpClient :=
  { c with buffer := c.buffer.map fun buffer => segment ++ buffer.drop segment.length }

def bufferLength (c : NetTcpClient) : Nat := (c.buffer.getD []).length

def isPrivateNetwork (c : NetTcpClient) : Bool := c.isPrivateClient

def dispose (c : NetTcpClient) : NetTcpClient := { c with disposedValue := true }

theorem run_sendAsync {c : NetTcpClient} (h : c.disposedValue = false) (task : WriteTask)
    (buffer : List UInt8) : (sendAsync (some task) buffer).run c =
      .ok task { c with written := c.written ++ [buffer] } := by
  simp only [sendAsync, EStateM.run_bind, EStateM.run_get, h, Bool.false_eq_true, if_false,
    EStateM.run_modify, EStateM.run_pure]

theorem run_sendAsync_of_disposed {c : NetTcpClient} (h : c.disposedValue = true)
    {write : Option WriteTask} {buffer : List UInt8} :
    (sendAsync write buffer).run c = .error .objectDisposed c := by
  simp only [sendAsync, EStateM.run_bind, EStateM.run_get, h, if_true]
  rfl

theorem run_sendAsync_none {c : NetTcpClient} (h : c.disposedValue = false)
    {buffer : List UInt8} : (sendAsync none buffer).run c = .error .io c := by
  simp only [sendAsync, EStateM.run_bind, EStateM.run_get, h, Bool.false_eq_true, if_false]
  rfl

end NetTcpClient

end AcOpenServer

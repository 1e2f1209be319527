import HealthProbe.Network.Check
import HealthProbe.Network.Inquiry
import Std.Async.TCP
import Std.Async.Timer
import Std.Async.UDP

/-! # Probes on the wire

Sends what a inquiry asks for to real addresses and hands what comes back to the rules that judge it. All
addresses of a check are asked side by side.
-/
namespace HealthProbe.Live
open Std.Async Std.Net

def socketAddress (a : Address) (port : UInt16) : SocketAddress :=
  match a with
  | .v4 a b c d => .v4 ⟨⟨#v[a, b, c, d]⟩, port⟩
  | .v6 gs eight => .v6 ⟨⟨⟨gs.toArray, by simpa using eight⟩⟩, port⟩

/-- Any address of the same family, on a port that is free. -/
def anySocket : Address → SocketAddress
  | .v4 .. => .v4 ⟨⟨Vector.replicate 4 0⟩, 0⟩
  | .v6 .. => .v6 ⟨⟨Vector.replicate 8 0⟩, 0⟩

def longestWait : Nat := Nat.pow 2 40

def offset (millis : Nat) : Std.Time.Millisecond.Offset := .ofNat (min millis longestWait)

def before {α : Type} (stop : Nat) (s : Std.Async.Selector α) : Async (Option α) := do
  let now ← IO.monoMsNow
  let sleep ← Std.Async.Selector.sleep (offset (stop - now))
  Selectable.one #[.case s fun a => pure (some a), .case sleep fun _ => pure none]

abbrev Asking := ExceptT CheckFailure (ExceptT String Async)

def orFail {α : Type} (text : String) (act : Async α) : Asking α := do
  match ← (tryCatch (Except.ok <$> act) (pure ∘ Except.error) : Async (Except IO.Error α)) with
  | .ok a => pure a
  | .error e => throw (.probe (text ++ ": " ++ toString e))

def awaitReply (socket : UDP.Socket) (id : UInt16) (stop : Nat) : Async Dns.End := do
  repeat
    match ← before stop (socket.recvSelector (UInt64.ofNat Dns.maxDatagram)) with
    | none => return .timedOut
    | some (bytes, _) =>
      match (Dns.await id 0 [⟨0, bytes.toList⟩]).1 with
      | .timedOut => continue
      | e => return e
  return .timedOut

/-- Asks one address for a name. There is a crash if the clock does not get as far as the deadline. -/
def askName (name : DomainName) (seconds : UInt64) (a : Address) (port : UInt16) : Asking Unit := do
  let target := a.socket port.toNat
  let random ← IO.getRandomBytes 2
  let id := random.toList.foldl (fun n b => 256 * n + b.toUInt16) 0
  match Dns.Codec.write (.query id name) with
  | .error reason => throw (Dns.unwritten reason)
  | .ok query =>
    let socket ← orFail (Dns.Stage.bind.complaint target) do
      let socket ← UDP.Socket.mk
      socket.bind (anySocket a)
      pure socket
    orFail (Dns.Stage.connect.complaint target) (socket.connect (socketAddress a port))
    orFail (Dns.Stage.send.complaint target) (socket.send ⟨query.toArray⟩)
    let start ← IO.monoMsNow
    let millis := 1000 * seconds.toNat
    if !Dns.onClock (start + millis) then
      liftM (throw Dns.noDeadline : ExceptT String Async Unit)
    let reached ← orFail (Dns.Stage.receive.complaint target) (awaitReply socket id (start + millis))
    match reached.result target millis with
    | .ok () => pure ()
    | .error e => throw e

def readReply (socket : TCP.Socket.Client) (stop : Nat) : Async Http.End := do
  let mut bytes : ByteArray := .empty
  repeat
    match ← before stop (socket.recvSelector 65536) with
    | none => return .timedOut
    | some none => return .replied bytes.toList
    | some (some more) =>
      bytes := bytes ++ more
      if Http.isReply bytes.toList then return .replied bytes.toList
  return .timedOut

def requestText (agent target path : String) : String :=
  let (line, headers) := Http.request agent target path
  "\r\n".intercalate (line :: headers ++ ["", ""])

def askPath (agent path : String) (millis : Nat) (a : Address) (port : UInt16) : Async Http.End := do
  let stop := (← IO.monoMsNow) + millis
  let socket ← TCP.Socket.Client.mk
  let connected : Async (Option Bool) :=
    tryCatch (do socket.connect (socketAddress a port); pure (some true)) fun _ => pure (some false)
  match ← Async.race connected (do sleep (offset millis); pure none) with
  | none => pure .timedOut
  | some false => pure .refused
  | some true =>
    tryCatch
      (do
        socket.send (requestText agent (a.socket port.toNat) path).toUTF8
        readReply socket stop)
      fun _ => pure (.replied [])

def ask (agent : String) (p : Inquiry) (port : UInt16) (a : Address) : Async Probing := do
  let start ← IO.monoMsNow
  let result : Except String (Except CheckFailure Unit) ← match p with
    | .dns name seconds => (askName name seconds a port).run.run
    | .http path seconds => do
      let reached ← askPath agent path (1000 * seconds.toNat) a port
      pure (.ok (reached.result (a.socket port.toNat) path))
  let delay := (← IO.monoMsNow) - start
  match result with
  | .ok (.ok ()) => pure (.probe ⟨delay, none⟩)
  | .ok (.error e) => pure (.probe ⟨delay, some e⟩)
  | .error words => pure (.crash delay words)

def askAll (agent : String) (p : Inquiry) (port : UInt16) (addresses : List Address) :
    IO (List (Address × Probing)) :=
  Async.block do
    let addresses := addresses.eraseDups
    let answers ← Async.concurrentlyAll (addresses.map (ask agent p port)).toArray
    pure (addresses.zip answers.toList)

end HealthProbe.Live

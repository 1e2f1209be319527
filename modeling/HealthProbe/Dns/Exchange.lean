import HealthProbe.Dns.Message
import HealthProbe.Failure

/-! # Asking a name server

A query goes out, and the first reply that could be meant for it decides. Replies to other queries are
passed over, and the deadline does not move by them. A datagram is cut to 512 bytes. The deadline is set when
the query is out, and the exchange crashes if the clock does not get that far.
-/
namespace HealthProbe.Dns
variable [codec : Codec]

inductive Reply
  | valid
  | foreign
  | malformed (reason : String)
  deriving DecidableEq, Repr

def maxDatagram : Nat := 512

def Reply.of (id : UInt16) (datagram : List UInt8) : Reply :=
  match codec.read datagram with
  | .error reason => malformed reason
  | .ok m =>
    if m.id ≠ id then foreign else if m.response then valid else malformed "缺少响应标志"

/-- A datagram from the server and the millisecond of the wait at which it arrives. -/
structure Datagram where
  time : Nat
  bytes : List UInt8
  deriving DecidableEq, Repr

inductive End
  | answered
  | malformed (reason : String)
  | timedOut
  deriving DecidableEq, Repr

/-- Waits from an instant on until a deadline for the datagrams that arrive, in their order; tells the end
of the wait and when it comes. A datagram that has arrived before is there at once. -/
def awaitFrom (id : UInt16) (deadline now : Nat) : List Datagram → End × Nat
  | [] => (.timedOut, now + (deadline - now))
  | d :: ds =>
    let remaining := deadline - now
    let arrival := max now d.time
    if now + remaining < arrival then (.timedOut, now + remaining)
    else
      match Reply.of id (d.bytes.take maxDatagram) with
      | .valid => (.answered, arrival)
      | .foreign => awaitFrom id deadline arrival ds
      | .malformed reason => (.malformed reason, arrival)

/-- Waits up to a limit, from the instant at which the query is sent. -/
def await (id : UInt16) (limit : Nat) (ds : List Datagram) : End × Nat := awaitFrom id limit 0 ds

def End.result (target : String) (limit : Nat) : End → Except CheckFailure Unit
  | answered => .ok ()
  | malformed reason => .error (.probe (target ++ " 响应格式错误: " ++ reason))
  | timedOut => .error (.timeout (Span.ofMillis limit))

def query? (id : UInt16) (n : DomainName) : Option (List UInt8) := (codec.write (.query id n)).toOption

def unwritten (reason : String) : CheckFailure := .probe ("编码查询失败: " ++ reason)

inductive Stage
  | bind
  | connect
  | send
  | receive
  deriving DecidableEq, Repr

def Stage.complaint (target : String) : Stage → String
  | bind => "绑定 UDP 端口失败"
  | connect => "连接 " ++ target ++ " 失败"
  | send => "发送查询到 " ++ target ++ " 失败"
  | receive => "接收 " ++ target ++ " 响应失败"

structure Refusal where
  stage : Stage
  time : Nat
  reason : String
  deriving DecidableEq, Repr

def Refusal.failure (target : String) (r : Refusal) : CheckFailure :=
  .probe (r.stage.complaint target ++ ": " ++ r.reason)

/-- Asks a target for a name, which sends datagrams unless the system refuses; tells what a check is to
think of the target and when the exchange is over, if there is a deadline. -/
def exchange (id : UInt16) (n : DomainName) (target : String) (limit : Nat)
    (answer : Except Refusal (List Datagram)) : Except CheckFailure Unit × Nat :=
  match codec.write (.query id n) with
  | .error reason => (.error (unwritten reason), 0)
  | .ok _ =>
    match answer with
    | .ok ds => ((await id limit ds).1.result target limit, (await id limit ds).2)
    | .error r =>
      if limit < r.time then (End.timedOut.result target limit, limit)
      else (.error (r.failure target), r.time)

def clockEnd : Nat := Nat.pow 2 63

/-- The second until which a wait that begins at one lasts, if the clock gets that far. -/
def deadline? (now limit : Nat) : Option Nat := if now + limit < clockEnd then some (now + limit) else none

def noDeadline : String := "overflow when adding duration to instant"

/-- Whether a query gets as far as the wait for its reply. -/
def waits : Except Refusal (List Datagram) → Bool
  | .ok _ => true
  | .error r => r.stage = .receive

def onClock (millis : Nat) : Bool := millis / 1000 < clockEnd

/-- An exchange whose query goes out at a millisecond of the clock. -/
def exchangeFrom (now : Nat) (id : UInt16) (n : DomainName) (target : String) (limit : Nat)
    (answer : Except Refusal (List Datagram)) : Except String (Except CheckFailure Unit × Nat) :=
  match codec.write (.query id n), waits answer && !onClock (now + limit) with
  | .ok _, true => .error noDeadline
  | _, _ => .ok (exchange id n target limit answer)

def exchangeAt (now : Nat) (id : UInt16) (n : DomainName) (target : String) (seconds : UInt64)
    (answer : Except Refusal (List Datagram)) : Except String (Except CheckFailure Unit × Nat) :=
  exchangeFrom (1000 * now) id n target (1000 * seconds.toNat) answer

end HealthProbe.Dns

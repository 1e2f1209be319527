import HealthProbe.Proofs.Dns.Spelling
import Mathlib.Data.List.Forall2
import Mathlib.Tactic.ByContra

/-! # The datagram that decides

An exchange hangs on one datagram: the first that is not foreign. If it comes in time, it tells how the
exchange ends, and when; if it does not, the exchange ends at its limit. Foreign datagrams before it are
passed over without a trace, since the deadline is set once and each wait is for what is left of it.

That is so for any codec, but only for queries that it can write: where it refuses, the exchange is over at
once, whatever a target would have sent.
-/
namespace HealthProbe.Dns

variable {id : UInt16} {n : DomainName} {target : String} {limit deadline now : Nat}

theorem result_eq_ok_iff (e : End) : e.result target limit = .ok () ↔ e = .answered := by
  cases e <;> simp [End.result]

theorem result_eq_probe_iff (e : End) (text : String) :
    e.result target limit = .error (.probe text) ↔
      ∃ reason, e = .malformed reason ∧ target ++ " 响应格式错误: " ++ reason = text := by
  cases e <;> simp [End.result]

theorem result_eq_timeout_iff (e : End) :
    e.result target limit = .error (.timeout (Span.ofMillis limit)) ↔ e = .timedOut := by
  cases e <;> simp [End.result]

theorem onClock_iff {millis : Nat} : onClock millis = true ↔ millis < 1000 * clockEnd := by
  rw [onClock, decide_eq_true_iff, Nat.div_lt_iff_lt_mul (by decide), Nat.mul_comm]

section
variable [codec : Codec] {d : Datagram} {ds es before after : List Datagram}

namespace Datagram

def content (d : Datagram) : Except String Message := codec.read (d.bytes.take maxDatagram)

def message? (d : Datagram) : Option Message := d.content.toOption

def IsForeign (id : UInt16) (d : Datagram) : Prop := ∃ m, d.message? = some m ∧ m.id ≠ id

instance (id : UInt16) : DecidablePred (IsForeign id) := fun d =>
  decidable_of_iff (d.message?.any fun m => m.id ≠ id) (by simp [IsForeign, Option.any_eq_true])

def verdict (d : Datagram) : End :=
  match d.content with
  | .error reason => .malformed reason
  | .ok m => if m.response then .answered else .malformed "缺少响应标志"

/-- Datagrams that come at the same instant, and either no message can be read of them for the same reason or
their messages belong to the same query and are both responses or not. The code of a message counts as little
as its records. -/
def Alike (d e : Datagram) : Prop :=
  d.time = e.time ∧
    d.content.map (fun m => (m.id, m.response)) = e.content.map fun m => (m.id, m.response)

theorem Alike.isForeign_iff {d e : Datagram} (h : d.Alike e) : d.IsForeign id ↔ e.IsForeign id := by
  obtain ⟨-,seen⟩ := h
  unfold IsForeign message?
  cases hd : d.content <;> cases he : e.content <;> simp_all [Except.map, Except.toOption]

theorem Alike.verdict_eq {d e : Datagram} (h : d.Alike e) : d.verdict = e.verdict := by
  obtain ⟨-,seen⟩ := h
  unfold verdict
  cases hd : d.content <;> cases he : e.content <;> simp_all [Except.map]

theorem message?_eq_some_iff {m : Message} : d.message? = some m ↔ d.content = .ok m := by
  unfold message?
  cases d.content <;> simp [Except.toOption]

theorem message?_eq_none_iff : d.message? = none ↔ ∃ reason, d.content = .error reason := by
  unfold message?
  cases d.content <;> simp [Except.toOption]

end Datagram

def Chronological (ds : List Datagram) : Prop := ds.Pairwise fun d e => d.time ≤ e.time

/-- The datagram that decides: the first that is not foreign, if it comes in time. -/
def Decides (id : UInt16) (limit : Nat) (ds : List Datagram) (d : Datagram) : Prop :=
  ∃ before after, ds = before ++ d :: after ∧ (∀ e ∈ before, e.IsForeign id) ∧ ¬d.IsForeign id ∧
    d.time ≤ limit

/-! ## The wait -/

theorem reply_of_foreign (h : d.IsForeign id) :
    Reply.of id (d.bytes.take maxDatagram) = .foreign := by
  obtain ⟨m,spelt,other⟩ := h
  have read : codec.read (d.bytes.take maxDatagram) = .ok m := Datagram.message?_eq_some_iff.mp spelt
  simp [Reply.of, read, other]

theorem awaitFrom_cons_of_foreign (h : d.IsForeign id) (started : now ≤ d.time)
    (inTime : d.time ≤ deadline) :
    awaitFrom id deadline now (d :: ds) = awaitFrom id deadline d.time ds := by
  have notLate : ¬now + (deadline - now) < d.time := by omega
  simp only [awaitFrom, Nat.max_eq_right started, notLate, ↓reduceIte, reply_of_foreign h]

theorem awaitFrom_cons_of_not_foreign (h : ¬d.IsForeign id) (started : now ≤ d.time)
    (inTime : d.time ≤ deadline) :
    awaitFrom id deadline now (d :: ds) = (d.verdict, d.time) := by
  have notLate : ¬now + (deadline - now) < d.time := by omega
  simp only [awaitFrom, Nat.max_eq_right started, notLate, ↓reduceIte]
  simp only [Datagram.IsForeign, not_exists, not_and, Decidable.not_not] at h
  cases content : d.content with
  | error reason =>
    have unread : codec.read (d.bytes.take maxDatagram) = .error reason := content
    simp [Reply.of, unread, Datagram.verdict, content]
  | ok m =>
    have read : codec.read (d.bytes.take maxDatagram) = .ok m := content
    have own := h m (Datagram.message?_eq_some_iff.mpr content)
    cases asked : m.response <;> simp [Reply.of, read, own, Datagram.verdict, content, asked]

theorem awaitFrom_of_late (onTime : now ≤ deadline) (late : ∀ d ∈ ds, deadline < d.time) :
    awaitFrom id deadline now ds = (.timedOut, deadline) := by
  have left : now + (deadline - now) = deadline := by omega
  cases ds with
  | nil => simp [awaitFrom, left]
  | cons d ds =>
    have isLate : deadline < max now d.time := by
      have := late d List.mem_cons_self
      omega
    simp [awaitFrom, left, isLate]

def endBy (limit : Nat) : Option Datagram → End × Nat
  | none => (.timedOut, limit)
  | some d => if d.time ≤ limit then (d.verdict, d.time) else (.timedOut, limit)

def firstOwn? (id : UInt16) (ds : List Datagram) : Option Datagram := ds.find? fun d => ¬d.IsForeign id

/-- However often a wait goes on after a foreign datagram, its deadline stays. -/
theorem awaitFrom_eq (ordered : Chronological ds) (started : ∀ d ∈ ds, now ≤ d.time)
    (onTime : now ≤ deadline) :
    awaitFrom id deadline now ds = endBy deadline (firstOwn? id ds) := by
  -- The wait for the rest begins where the foreign datagram has come, with the same deadline.
  induction ds generalizing now with
  | nil => exact awaitFrom_of_late onTime (by simp)
  | cons d ds ih =>
    obtain ⟨later,rest⟩ := List.pairwise_cons.mp ordered
    have begun := started d List.mem_cons_self
    by_cases inTime : d.time ≤ deadline
    · by_cases foreign : d.IsForeign id
      · rw [awaitFrom_cons_of_foreign foreign begun inTime, ih rest later inTime]
        simp [firstOwn?, foreign]
      · rw [awaitFrom_cons_of_not_foreign foreign begun inTime]
        simp [firstOwn?, foreign, endBy, inTime]
    · have late : ∀ e ∈ d :: ds, deadline < e.time := by
        intro e he
        rcases List.mem_cons.mp he with rfl | he
        · omega
        · have := later e he
          omega
      rw [awaitFrom_of_late onTime late]
      cases found : firstOwn? id (d :: ds) with
      | none => rfl
      | some e => simp [endBy, Nat.not_le.mpr (late e (List.mem_of_find?_eq_some found))]

theorem await_eq (ordered : Chronological ds) :
    await id limit ds = endBy limit (firstOwn? id ds) :=
  awaitFrom_eq ordered (fun _ _ => Nat.zero_le _) (Nat.zero_le _)

/-! ## The datagrams that count -/

theorem decides_iff : Decides id limit ds d ↔ firstOwn? id ds = some d ∧ d.time ≤ limit := by
  simp only [Decides, firstOwn?, List.find?_eq_some_iff_append, decide_eq_true_eq, Bool.not_eq_true',
    decide_eq_false_iff_not, Decidable.not_not]
  constructor
  · rintro ⟨before,after,split,foreign,own,inTime⟩
    exact ⟨⟨own,before,after,split,foreign⟩,inTime⟩
  · rintro ⟨⟨own,before,after,split,foreign⟩,inTime⟩
    exact ⟨before,after,split,foreign,own,inTime⟩

theorem Decides.unique {e : Datagram} (h : Decides id limit ds d) (h' : Decides id limit ds e) :
    d = e := by
  have first := (decides_iff.mp h).1
  rw [(decides_iff.mp h').1] at first
  exact (Option.some.inj first).symm

theorem Decides.mem (h : Decides id limit ds d) : d ∈ ds :=
  List.mem_of_find?_eq_some (decides_iff.mp h).1

theorem Decides.not_isForeign (h : Decides id limit ds d) : ¬d.IsForeign id := by
  obtain ⟨_,_,_,_,own,_⟩ := h
  exact own

/-- Where no datagram decides, those in time are foreign: what comes after one too late is late too. -/
theorem isForeign_of_undecided (ordered : Chronological ds) (undecided : ∀ d, ¬Decides id limit ds d) :
    ∀ d ∈ ds, d.time ≤ limit → d.IsForeign id := by
  intro d hd inTime
  by_contra own
  cases found : firstOwn? id ds with
  | none =>
    have foreign := List.find?_eq_none.mp found d hd
    simp [own] at foreign
  | some e =>
    have late : ¬e.time ≤ limit := fun le => undecided e (decides_iff.mpr ⟨found,le⟩)
    obtain ⟨-,before,after,rfl,foreign⟩ := List.find?_eq_some_iff_append.mp found
    rcases List.mem_append.mp hd with hd | hd
    · have := foreign d hd
      simp [own] at this
    · rcases List.mem_cons.mp hd with rfl | hd
      · exact late inTime
      · have := (List.pairwise_cons.mp (List.pairwise_append.mp ordered).2.1).1 d hd
        omega

theorem firstOwn?_filter (ds : List Datagram) :
    firstOwn? id (ds.filter fun d => ¬d.IsForeign id) = firstOwn? id ds := by
  simp only [firstOwn?, List.find?_filter, and_self, Bool.decide_eq_true]

theorem firstOwn?_append_cons (own : ¬d.IsForeign id) (after after' : List Datagram) :
    firstOwn? id (before ++ d :: after') = firstOwn? id (before ++ d :: after) := by
  simp [firstOwn?, List.find?_append, own]

theorem endBy_firstOwn?_of_alike (h : List.Forall₂ Datagram.Alike ds es) :
    endBy limit (firstOwn? id ds) = endBy limit (firstOwn? id es) := by
  induction h with
  | nil => rfl
  | @cons d e ds es alike _ ih =>
    by_cases foreign : d.IsForeign id
    · have foreign' := alike.isForeign_iff.mp foreign
      simpa [firstOwn?, foreign, foreign'] using ih
    · have own := mt alike.isForeign_iff.mpr foreign
      simp [firstOwn?, foreign, own, endBy, alike.1, alike.verdict_eq]

theorem Chronological.of_alike (h : List.Forall₂ Datagram.Alike ds es) (ordered : Chronological ds) :
    Chronological es := by
  have times : ds.map Datagram.time = es.map Datagram.time := by
    induction h with
    | nil => rfl
    | cons alike _ ih => simp [alike.1, ih (List.pairwise_cons.mp ordered).2]
  rw [Chronological, ← List.pairwise_map (f := Datagram.time) (R := (· ≤ ·))] at ordered ⊢
  rwa [← times]

/-! ## The exchange -/

/-- The results of an exchange, given the datagrams that a target sends, are those of the datagram that
decides. -/
structure HangsOnDecider (id : UInt16) (target : String) (limit : Nat)
    (result : List Datagram → Except CheckFailure Unit × Nat) : Prop where
  reached : ∀ ds, Chronological ds →
    ((result ds).1 = .ok () ↔
      ∃ d m, Decides id limit ds d ∧ d.message? = some m ∧ m.response = true)
  malformed : ∀ ds, Chronological ds →
    ((∃ text, (result ds).1 = .error (.probe text)) ↔
      ∃ d, Decides id limit ds d ∧
        (d.message? = none ∨ ∃ m, d.message? = some m ∧ m.response = false))
  malformedText : ∀ ds text, Chronological ds → (result ds).1 = .error (.probe text) →
    ∃ reason, text = target ++ " 响应格式错误: " ++ reason
  timedOut : ∀ ds, Chronological ds →
    (result ds = (.error (.timeout (Span.ofMillis limit)), limit) ↔
      ∀ d ∈ ds, d.time ≤ limit → d.IsForeign id)
  instant : ∀ ds d, Chronological ds → Decides id limit ds d → (result ds).2 = d.time
  /-- Foreign datagrams come and go, any number of them. -/
  foreign : ∀ ds es, Chronological ds → Chronological es →
    (ds.filter fun d => ¬d.IsForeign id) = (es.filter fun d => ¬d.IsForeign id) →
    result ds = result es
  /-- What comes after the datagram that decides does not count. -/
  after : ∀ before d later later', Chronological (before ++ d :: later) →
    Chronological (before ++ d :: later') → Decides id limit (before ++ d :: later) d →
    result (before ++ d :: later) = result (before ++ d :: later')
  /-- Nor do the code and whatever else stands in a message. -/
  alike : ∀ ds es, Chronological ds → List.Forall₂ Datagram.Alike ds es → result ds = result es

theorem exchange_eq {query : List UInt8} (sent : codec.write (.query id n) = .ok query)
    (ordered : Chronological ds) :
    exchange id n target limit (.ok ds) =
      ((endBy limit (firstOwn? id ds)).1.result target limit, (endBy limit (firstOwn? id ds)).2) := by
  simp only [exchange, sent, await_eq ordered]

theorem exchange_of_decides {query : List UInt8} (sent : codec.write (.query id n) = .ok query)
    (ordered : Chronological ds) (h : Decides id limit ds d) :
    exchange id n target limit (.ok ds) = (d.verdict.result target limit, d.time) := by
  obtain ⟨first,inTime⟩ := decides_iff.mp h
  simp [exchange_eq sent ordered, first, endBy, inTime]

theorem exchange_of_undecided {query : List UInt8} (sent : codec.write (.query id n) = .ok query)
    (ordered : Chronological ds) (h : ∀ d, ¬Decides id limit ds d) :
    exchange id n target limit (.ok ds) = (.error (.timeout (Span.ofMillis limit)), limit) := by
  rw [exchange_eq sent ordered]
  cases first : firstOwn? id ds with
  | none => rfl
  | some d =>
    have late : ¬d.time ≤ limit := fun le => h d (decides_iff.mpr ⟨first,le⟩)
    simp [endBy, late, End.result]

theorem verdict_eq_answered_iff (d : Datagram) :
    d.verdict = .answered ↔ ∃ m, d.message? = some m ∧ m.response = true := by
  simp only [Datagram.message?_eq_some_iff, Datagram.verdict]
  cases d.content with
  | error reason => simp
  | ok m => cases h : m.response <;> simp [h]

theorem verdict_eq_malformed_iff (d : Datagram) :
    (∃ reason, d.verdict = .malformed reason) ↔
      d.message? = none ∨ ∃ m, d.message? = some m ∧ m.response = false := by
  simp only [Datagram.message?_eq_some_iff, Datagram.message?_eq_none_iff, Datagram.verdict]
  cases d.content with
  | error reason => simp
  | ok m => cases h : m.response <;> simp [h]

theorem verdict_ne_timedOut (d : Datagram) : d.verdict ≠ .timedOut := by
  unfold Datagram.verdict
  split
  · simp
  · split <;> simp

section
variable (target : String) (limit : Nat) {query : List UInt8} (sent : codec.write (.query id n) = .ok query)
  (ordered : Chronological ds)
include sent ordered

theorem exchange_decided_or_not :
    (∃ d, Decides id limit ds d ∧
      exchange id n target limit (.ok ds) = (d.verdict.result target limit, d.time)) ∨
    ((∀ d, ¬Decides id limit ds d) ∧
      exchange id n target limit (.ok ds) = (.error (.timeout (Span.ofMillis limit)), limit)) := by
  by_cases h : ∃ d, Decides id limit ds d
  · obtain ⟨d,decides⟩ := h
    exact Or.inl ⟨d,decides,exchange_of_decides sent ordered decides⟩
  · have undecided := not_exists.mp h
    exact Or.inr ⟨undecided,exchange_of_undecided sent ordered undecided⟩

theorem exchange_ok_iff :
    (exchange id n target limit (.ok ds)).1 = .ok () ↔
      ∃ d m, Decides id limit ds d ∧ d.message? = some m ∧ m.response = true := by
  constructor
  · intro ok
    rcases exchange_decided_or_not target limit sent ordered with ⟨d,decides,eq⟩ | ⟨-,eq⟩
    · rw [eq, result_eq_ok_iff, verdict_eq_answered_iff] at ok
      obtain ⟨m,spelt,asked⟩ := ok
      exact ⟨d,m,decides,spelt,asked⟩
    · rw [eq] at ok
      cases ok
  · rintro ⟨d,m,decides,spelt,asked⟩
    rw [exchange_of_decides sent ordered decides, result_eq_ok_iff, verdict_eq_answered_iff]
    exact ⟨m,spelt,asked⟩

theorem exchange_probe_iff :
    (∃ text, (exchange id n target limit (.ok ds)).1 = .error (.probe text)) ↔
      ∃ d, Decides id limit ds d ∧
        (d.message? = none ∨ ∃ m, d.message? = some m ∧ m.response = false) := by
  constructor
  · rintro ⟨text,failed⟩
    rcases exchange_decided_or_not target limit sent ordered with ⟨d,decides,eq⟩ | ⟨-,eq⟩
    · rw [eq, result_eq_probe_iff] at failed
      obtain ⟨r,malformed,-⟩ := failed
      exact ⟨d,decides,(verdict_eq_malformed_iff d).mp ⟨r,malformed⟩⟩
    · rw [eq] at failed
      cases failed
  · rintro ⟨d,decides,bad⟩
    obtain ⟨r,malformed⟩ := (verdict_eq_malformed_iff d).mpr bad
    refine ⟨target ++ " 响应格式错误: " ++ r,?_⟩
    rw [exchange_of_decides sent ordered decides, result_eq_probe_iff]
    exact ⟨r,malformed,rfl⟩

theorem exchange_probe_text {text : String}
    (failed : (exchange id n target limit (.ok ds)).1 = .error (.probe text)) :
    ∃ reason, text = target ++ " 响应格式错误: " ++ reason := by
  rcases exchange_decided_or_not target limit sent ordered with ⟨d,-,eq⟩ | ⟨-,eq⟩
  · rw [eq, result_eq_probe_iff] at failed
    obtain ⟨r,-,told⟩ := failed
    exact ⟨r,told.symm⟩
  · rw [eq] at failed
    cases failed

theorem exchange_timeout_iff :
    exchange id n target limit (.ok ds) = (.error (.timeout (Span.ofMillis limit)), limit) ↔
      ∀ d ∈ ds, d.time ≤ limit → d.IsForeign id := by
  constructor
  · intro timeout
    rcases exchange_decided_or_not target limit sent ordered with ⟨d,-,eq⟩ | ⟨undecided,-⟩
    · have ended := congrArg Prod.fst (eq.symm.trans timeout)
      exact absurd ((result_eq_timeout_iff _).mp ended) (verdict_ne_timedOut d)
    · exact isForeign_of_undecided ordered undecided
  · intro foreign
    refine exchange_of_undecided sent ordered fun d decides => ?_
    obtain ⟨-,inTime⟩ := decides_iff.mp decides
    exact decides.not_isForeign (foreign d decides.mem inTime)

end

theorem hangsOnDecider_of_sent (target : String) (limit : Nat) {query : List UInt8}
    (sent : codec.write (.query id n) = .ok query) :
    HangsOnDecider id target limit fun ds => exchange id n target limit (.ok ds) where
  reached ds ordered := exchange_ok_iff target limit sent ordered
  malformed ds ordered := exchange_probe_iff target limit sent ordered
  malformedText ds text ordered := exchange_probe_text target limit sent ordered
  timedOut ds ordered := exchange_timeout_iff target limit sent ordered
  instant ds d ordered decides := congrArg Prod.snd (exchange_of_decides sent ordered decides)
  foreign ds es ordered ordered' own := by
    simp only [exchange_eq sent ordered, exchange_eq sent ordered', ← firstOwn?_filter ds, own,
      firstOwn?_filter]
  after before d later later' ordered ordered' decides := by
    simp only [exchange_eq sent ordered, exchange_eq sent ordered',
      firstOwn?_append_cons decides.not_isForeign later later']
  alike ds es ordered same := by
    simp only [exchange_eq sent ordered, exchange_eq sent (ordered.of_alike same),
      endBy_firstOwn?_of_alike same]

/-! ## On the clock -/

theorem exchangeFrom_of_onClock {answer : Except Refusal (List Datagram)}
    (inside : now + limit < 1000 * clockEnd) :
    exchangeFrom now id n target limit answer = .ok (exchange id n target limit answer) := by
  simp only [exchangeFrom, onClock_iff.mpr inside, Bool.not_true, Bool.and_false]
  cases codec.write (.query id n) <;> rfl

theorem exchangeFrom_of_unwritten {answer : Except Refusal (List Datagram)} {reason : String}
    (refused : codec.write (.query id n) = .error reason) :
    exchangeFrom now id n target limit answer = .ok (.error (unwritten reason), 0) := by
  simp only [exchangeFrom, exchange, refused]

/-- An exchange whose query can be written, and whose deadline the clock shows, hangs on the datagram that
decides and nothing else. Where the codec refuses to write the query, its reason is the result. -/
theorem exchange_hangsOnDecider (now : Nat) (id : UInt16) (n : DomainName) (target : String) (limit : Nat) :
    (∀ query, codec.write (.query id n) = .ok query → now + limit < 1000 * clockEnd →
      ∃ result, HangsOnDecider id target limit result ∧
        ∀ ds, exchangeFrom now id n target limit (.ok ds) = .ok (result ds)) ∧
    ∀ reason, codec.write (.query id n) = .error reason → ∀ answer,
      exchangeFrom now id n target limit answer = .ok (.error (.probe ("编码查询失败: " ++ reason)), 0) := by
  constructor
  · intro query sent inside
    exact ⟨_,hangsOnDecider_of_sent target limit sent,fun ds => exchangeFrom_of_onClock inside⟩
  · intro reason refused answer
    exact exchangeFrom_of_unwritten refused

end

/-- A reply to the query before, and then a refusal at the last instant. Neither repeats the question. -/
theorem exchange_hangsOnDecider_strayReply :
    ∃ result, HangsOnDecider 7 "127.0.0.1:53" 50 result ∧
      exchangeFrom 0 7 ⟨[[97]]⟩ "127.0.0.1:53" 50
        (.ok [⟨10,[0, 6, 129, 128, 0, 0, 0, 0, 0, 0, 0, 0]⟩,
          ⟨50,[0, 7, 129, 133, 0, 0, 0, 0, 0, 0, 0, 0]⟩]) = .ok (.ok (), 50) := by
  obtain ⟨result,hangs,same⟩ :=
    (exchange_hangsOnDecider 0 7 ⟨[[97]]⟩ "127.0.0.1:53" 50).1 (Message.query 7 ⟨[[97]]⟩).bytes rfl (by decide)
  refine ⟨result,hangs,?_⟩
  rw [same]
  have ordered : Chronological [⟨10,[0, 6, 129, 128, 0, 0, 0, 0, 0, 0, 0, 0]⟩,
      ⟨50,[0, 7, 129, 133, 0, 0, 0, 0, 0, 0, 0, 0]⟩] := by simp [Chronological]
  have decides : Decides 7 50 [⟨10,[0, 6, 129, 128, 0, 0, 0, 0, 0, 0, 0, 0]⟩,
      ⟨50,[0, 7, 129, 133, 0, 0, 0, 0, 0, 0, 0, 0]⟩] ⟨50,[0, 7, 129, 133, 0, 0, 0, 0, 0, 0, 0, 0]⟩ :=
    decides_iff.mpr ⟨rfl,by decide⟩
  have reached := (hangs.reached _ ordered).mpr ⟨_,_,decides,rfl,by decide⟩
  exact congrArg Except.ok (Prod.ext reached (hangs.instant _ _ ordered decides))

/-- Whatever answers to the longest name, its exchange fails: nobody is asked. -/
theorem longestName_undecided :
    ∃ n, DomainName.ofText (String.ofList DomainName.longest) = .ok n ∧
      Decides 7 3000 [⟨10,[0, 7, 129, 128, 0, 0, 0, 0, 0, 0, 0, 0]⟩]
        ⟨10,[0, 7, 129, 128, 0, 0, 0, 0, 0, 0, 0, 0]⟩ ∧
      (∃ m, Datagram.message? ⟨10,[0, 7, 129, 128, 0, 0, 0, 0, 0, 0, 0, 0]⟩ = some m ∧
        m.response = true) ∧
      exchangeFrom 0 7 n "127.0.0.1:53" 3000 (.ok [⟨10,[0, 7, 129, 128, 0, 0, 0, 0, 0, 0, 0, 0]⟩]) =
        .ok (.error unaskable, 0) := by
  obtain ⟨n,accepted,size⟩ := DomainName.ofText_longest
  refine ⟨n,accepted,decides_iff.mpr ⟨rfl,by decide⟩,⟨_,rfl,by decide⟩,?_⟩
  exact exchangeFrom_of_unwritten (write_of_size_eq size)

end HealthProbe.Dns

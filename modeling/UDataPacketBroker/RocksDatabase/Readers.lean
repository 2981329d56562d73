/-
# Queries while the store is in use

Consumer threads query the store while others write to it and truncate it.  `query`
opens one iterator for each pair of its request, and an iterator shows the store as it
was when it was opened.  So a response is put together from moments of the query, one
for each pair and in their order, and each part is exact at its own moment
(`query_moments`): it is not the answer of any single moment.

A consumer that goes on from one past the last number it was given reads a stream
exactly once (`follow_exactlyOnce`), whatever is truncated in between, provided that the
numbers of the stream are written in increasing order.
-/

import UDataPacketBroker.RocksDatabase.PacketLog
import UDataPacketBroker.RocksDatabase.Registry

namespace UDataPacketBroker
namespace RocksDatabase

open Library Utilities

variable {CF : Type} [OrderedStore CF Bytes Bytes]

/-- A history in two parts. -/
theorem run_append (P : Platform) (history history' : List Call) :
    (run P (history ++ history') : Database CF) = history'.foldl (step P) (run P history) := by
  rw [run, List.foldl_append]
  rfl

/-! ### A query between calls -/

/-- A `query` that is under way. -/
structure QueryState (CF : Type) where
  db : Database CF
  remaining : List (StreamIdentifier × UInt64)
  responses : List QueryResponse := []

inductive QueryEvent where
  /-- Another thread completes a call. -/
  | call (call : Call)
  /-- The body of the loop for the next pair. -/
  | pair

def QueryState.step (P : Platform) (s : QueryState CF) : QueryEvent → QueryState CF
  | .call call => { s with db := RocksDatabase.step P s.db call }
  | .pair =>
    match s.remaining with
    | [] => s
    | wanted :: remaining =>
      { s with remaining := remaining, responses := s.responses ++ query s.db [wanted] }

/-- A query of the store, after the events. -/
def runQuery (P : Platform) (db : Database CF) (request : List (StreamIdentifier × UInt64))
    (events : List QueryEvent) : QueryState CF :=
  events.foldl (QueryState.step P) { db := db, remaining := request }

/-- The calls that were completed during the query. -/
def callsDuring (events : List QueryEvent) : List Call :=
  events.filterMap fun
    | .call call => some call
    | .pair => none

/-- One more event of a query, and the call in it. -/
theorem callsDuring_concat (events : List QueryEvent) (e : QueryEvent) :
    callsDuring (events ++ [e]) = callsDuring events ++ callsDuring [e] := List.filterMap_append

/-- **A query part of the way:** the pairs that are done were answered one after another,
each at a moment since the query began. -/
structure Answering (P : Platform) (history : List Call)
    (request : List (StreamIdentifier × UInt64)) (events : List QueryEvent) (s : QueryState CF) :
    Prop where
  db : s.db = run P (history ++ callsDuring events)
  answers : ∃ (done : List (StreamIdentifier × UInt64))
    (answers : List (List Call × List QueryResponse)),
    request = done ++ s.remaining ∧ s.responses = (answers.map Prod.snd).flatten ∧
    (answers.map Prod.fst).Pairwise (· <+: ·) ∧
    (∀ answer ∈ answers, history <+: answer.1 ∧ answer.1 <+: history ++ callsDuring events) ∧
    List.Forall₂ (fun answer wanted => answer.2 = query (run P answer.1 : Database CF) [wanted])
      answers done

/-- **An event keeps the answers so far,** and a part that is read adds one. -/
theorem Answering.step {P : Platform} {history : List Call}
    {request : List (StreamIdentifier × UInt64)} {events : List QueryEvent} {s : QueryState CF}
    (h : Answering P history request events s) (e : QueryEvent) :
    Answering P history request (events ++ [e]) (s.step P e) := by
  obtain ⟨hdb, done, answers, hrequest, hresponses, hmoments, hbetween, hanswers⟩ := h
  cases e with
  | call call =>
      have hcalls : callsDuring (events ++ [.call call]) = callsDuring events ++ [call] :=
        callsDuring_concat events (.call call)
      refine ⟨?_, done, answers, hrequest, hresponses, hmoments, fun answer hanswer => ?_, hanswers⟩
      · rw [hcalls, ← List.append_assoc, run_concat, ← hdb]
        rfl
      · obtain ⟨hbegun, hpast⟩ := hbetween answer hanswer
        rw [hcalls, ← List.append_assoc]
        exact ⟨hbegun, hpast.trans (List.prefix_append _ _)⟩
  | pair =>
      have hcalls : callsDuring (events ++ [.pair]) = callsDuring events :=
        (callsDuring_concat events .pair).trans (List.append_nil _)
      rw [QueryState.step]
      cases hremaining : s.remaining with
      | nil =>
          dsimp only
          exact ⟨hcalls ▸ hdb, done, answers, hrequest, hresponses, hmoments, hcalls ▸ hbetween,
            hanswers⟩
      | cons wanted remaining =>
          refine ⟨hcalls ▸ hdb, done ++ [wanted],
            answers ++ [(history ++ callsDuring events, query s.db [wanted])], ?_, ?_, ?_, ?_, ?_⟩
          · rw [hrequest, hremaining, List.append_assoc, List.singleton_append]
          · rw [List.map_append, List.flatten_append, ← hresponses]
            simp
          · -- every earlier part was answered at an earlier moment
            rw [List.map_append, List.pairwise_append]
            refine ⟨hmoments, List.pairwise_singleton _ _, fun moment hmoment now hnow => ?_⟩
            obtain ⟨answer, hanswer, rfl⟩ := List.mem_map.1 hmoment
            rw [List.mem_singleton.1 hnow]
            exact (hbetween answer hanswer).2
          · intro answer hanswer
            rw [hcalls]
            rcases List.mem_append.1 hanswer with hold | hnew
            · exact hbetween answer hold
            · rw [List.mem_singleton.1 hnew]
              exact ⟨List.prefix_append _ _, List.prefix_rfl⟩
          · refine List.rel_append hanswers (.cons ?_ .nil)
            rw [hdb]

/-- So what a query has so far is answers, on every run. -/
theorem answering_runQuery (P : Platform) (history : List Call)
    (request : List (StreamIdentifier × UInt64)) (events : List QueryEvent) :
    Answering P history request events
      (runQuery P (run P history : Database CF) request events) := by
  induction events using List.reverseRecOn with
  | nil =>
      refine ⟨?_, [], [], rfl, rfl, List.Pairwise.nil, fun _ h => absurd h List.not_mem_nil, .nil⟩
      rw [callsDuring, List.filterMap_nil, List.append_nil]
      rfl
  | append_singleton events e ih =>
      rw [runQuery, List.foldl_append]
      exact ih.step e

/-! ### What a part answers -/

/-- A query for an identifier without a key. -/
theorem query_singleton_of_none {identifier : StreamIdentifier} (db : Database CF)
    (h : StreamKey.ofIdentifier? identifier = none) (start : UInt64) :
    query db [(identifier, start)] = [] := by
  simp [query_eq, h]

variable (CF) in
/-- **The exact answer to a pair at a moment:** what stands in the log of the stream from
the start on, in order, and nothing for an identifier that cannot be encoded. -/
def Answers (P : Platform) (history : List Call) (wanted : StreamIdentifier × UInt64)
    (part : List QueryResponse) : Prop :=
  part.Pairwise (fun r r' => r.sequenceNumber < r'.sequenceNumber) ∧
  ∀ r, r ∈ part ↔ IsEncodable wanted.1 ∧ wanted.2 ≤ r.sequenceNumber ∧
    LogEvent.Stands (logFrom P (Database.empty : Database CF) history) (canonical wanted.1)
      r.sequenceNumber.toNat ⟨r.receivedAt, r.packet⟩

/-- **One part of a response** has what the log holds of the stream from the number on. -/
theorem answers_query (P : Platform) (history : List Call)
    (hwrap : ∀ before nPackets after, history = before ++ .truncateOldest false nPackets :: after →
      (snapshotRegistry (run P before : Database CF)).entries ≠ [] →
      (snapshotRegistry (run P before : Database CF)).NoWrap nPackets)
    (wanted : StreamIdentifier × UInt64) :
    Answers CF P history wanted (query (run P history : Database CF) [wanted]) := by
  have hsound : (run P history : Database CF).Sound := Database.sound_run P history
  cases hk : StreamKey.ofIdentifier? wanted.1 with
  | none =>
      rw [query_singleton_of_none _ hk]
      refine ⟨List.Pairwise.nil, fun r => iff_of_false List.not_mem_nil fun h => ?_⟩
      exact StreamKey.ofIdentifier?_eq_none_iff.1 hk h.1
  | some k =>
      obtain ⟨hencodable, hcanonical⟩ := StreamKey.ofIdentifier?_eq_some_iff_canonical.1 hk
      rw [Database.query_singleton _ hk]
      refine ⟨hsound.wellFormed.readStream_sorted k wanted.2, fun r => ?_⟩
      rw [hsound.wellFormed.mem_readStream, holds_run P history hwrap,
        LogEvent.contents_eq_some_iff, hcanonical]
      exact (and_iff_right hencodable).symm

/-- **A query is answered from moments of its own.**  Whatever calls other threads
complete while it runs, without a cutoff that wraps, the response is one part for each
pair of the request in order; each part is the exact answer at a moment between the
beginning and the end of the query, and no part is of an earlier moment than the one
before it. -/
theorem query_moments (P : Platform) (history : List Call)
    (request : List (StreamIdentifier × UInt64)) (events : List QueryEvent)
    (hdone : (runQuery P (run P history : Database CF) request events).remaining = [])
    (hwrap : ∀ before nPackets after,
      history ++ callsDuring events = before ++ .truncateOldest false nPackets :: after →
      (snapshotRegistry (run P before : Database CF)).entries ≠ [] →
      (snapshotRegistry (run P before : Database CF)).NoWrap nPackets) :
    ∃ answers : List (List Call × List QueryResponse),
      (runQuery P (run P history : Database CF) request events).responses =
        (answers.map Prod.snd).flatten ∧
      (answers.map Prod.fst).Pairwise (· <+: ·) ∧
      (∀ answer ∈ answers, history <+: answer.1 ∧ answer.1 <+: history ++ callsDuring events) ∧
      List.Forall₂ (fun answer wanted => Answers CF P answer.1 wanted answer.2)
        answers request := by
  obtain ⟨-, done, answers, hrequest, hresponses, hmoments, hbetween, hanswers⟩ :=
    @answering_runQuery CF _ P history request events
  rw [hdone, List.append_nil] at hrequest
  subst hrequest
  refine ⟨answers, hresponses, hmoments, hbetween, ?_⟩
  have hparts := List.forall₂_iff_zip.1 hanswers
  refine List.forall₂_iff_zip.2 ⟨hparts.1, fun {answer wanted} hzip => ?_⟩
  obtain ⟨tail, hpast⟩ := (hbetween answer (List.of_mem_zip hzip).1).2
  rw [hparts.2 hzip]
  refine answers_query P answer.1 (fun before nPackets after h => ?_) wanted
  exact hwrap before nPackets (after ++ tail) (by rw [← hpast, h]; simp)

/-- The packet written between the two iterators is in the second part alone. -/
theorem query_moments_samplePacket :
    ∃ answers : List (List Call × List QueryResponse),
      (answers.map Prod.snd).flatten = [⟨Wire.serializePacket (samplePacket 1), 5, 1⟩] ∧
      List.Forall₂ (fun answer wanted => Answers (SortedTable Bytes Bytes) .protobuf answer.1
        wanted answer.2) answers
        [((samplePacket 1).streamIdentifier, 0), ((samplePacket 1).streamIdentifier, 0)] := by
  obtain ⟨answers, hresponses, -, -, hanswers⟩ := @query_moments (SortedTable Bytes Bytes) _
    .protobuf [] [((samplePacket 1).streamIdentifier, 0), ((samplePacket 1).streamIdentifier, 0)]
    [.pair, .call (.write false [(5, samplePacket 1)]), .pair] rfl
    (by
      intro before nPackets after h
      rcases before with _ | ⟨c₁, before⟩
      · simp [callsDuring] at h
      · simp [callsDuring] at h)
  exact ⟨answers, hresponses.symm.trans (by decide +kernel), hanswers⟩

/-! ### Going on from the last number -/

/-- Where a consumer goes on after a response. -/
def nextNumber (start : UInt64) (responses : List QueryResponse) : UInt64 :=
  match responses.getLast? with
  | none => start
  | some response => response.sequenceNumber + 1

/-- What a consumer is given that queries a stream again and again, each time after more
calls and from one past the last number it was given. -/
def follow (P : Platform) (identifier : StreamIdentifier) (db : Database CF) (start : UInt64) :
    List (List Call) → List QueryResponse
  | [] => []
  | calls :: polls =>
    let db := calls.foldl (step P) db
    let responses := query db [(identifier, start)]
    responses ++ follow P identifier db (nextNumber start responses) polls

/-- The numbers that a call writes to the stream of an identifier. -/
def numbersTo (identifier : StreamIdentifier) (call : Call) : Set UInt64 :=
  {s | ∃ receiptTimeAndData receiptTime packet, call = .write false receiptTimeAndData ∧
    (receiptTime, packet) ∈ receiptTimeAndData ∧ IsEncodable packet.streamIdentifier ∧
    canonical packet.streamIdentifier = canonical identifier ∧ packet.sequenceNumber = s}

/-- Each call writes to the stream past the calls before it. -/
def Ascending (identifier : StreamIdentifier) (history : List Call) : Prop :=
  history.Pairwise fun call call' =>
    ∀ s ∈ numbersTo identifier call, ∀ s' ∈ numbersTo identifier call', s < s'

/-- A record after more calls was there before them, or one of them wrote its number. -/
theorem of_records_run_append {P : Platform} {identifier : StreamIdentifier} {k : StreamKey}
    (hk : StreamKey.ofIdentifier? identifier = some k) (history calls : List Call) {s : UInt64}
    {record : Record}
    (h : ((run P (history ++ calls) : Database CF).view k).records s = some record) :
    ((run P history : Database CF).view k).records s = some record ∨
      ∃ call ∈ calls, s ∈ numbersTo identifier call := by
  induction calls using List.reverseRecOn with
  | nil => exact Or.inl (by rwa [List.append_nil] at h)
  | append_singleton calls call ih =>
      rw [← List.append_assoc, run_concat] at h
      have hsound : (run P (history ++ calls) : Database CF).Sound := Database.sound_run P _
      rcases hsound.wellFormed.of_records_step h with
        hbefore | ⟨data, t, packet, hcall, hmem, hstream, hs, -⟩
      · refine (ih hbefore).imp_right ?_
        rintro ⟨call', hmem, hs⟩
        exact ⟨call', List.mem_append_left _ hmem, hs⟩
      · obtain ⟨hencodable, hcanonical⟩ := StreamKey.ofIdentifier?_eq_some_iff_canonical.1 hstream
        obtain ⟨-, hcanonical'⟩ := StreamKey.ofIdentifier?_eq_some_iff_canonical.1 hk
        exact Or.inr ⟨call, List.mem_append_right _ (List.mem_singleton_self _),
          data, t, packet, hcall, hmem, hencodable, hcanonical.trans hcanonical'.symm, hs⟩

/-- A number of the stream was written to it. -/
theorem mem_numbersTo_of_records_run {P : Platform} {identifier : StreamIdentifier} {k : StreamKey}
    (hk : StreamKey.ofIdentifier? identifier = some k) (history : List Call) {s : UInt64}
    {record : Record} (h : ((run P history : Database CF).view k).records s = some record) :
    ∃ call ∈ history, s ∈ numbersTo identifier call := by
  rcases of_records_run_append hk [] history h with hnone | hwritten
  · rw [run_nil, Database.view_empty] at hnone
    cases hnone
  · exact hwritten

/-- **Nothing appears behind a number that was stored.** -/
theorem records_of_ascending {P : Platform} {identifier : StreamIdentifier} {k : StreamKey}
    (hk : StreamKey.ofIdentifier? identifier = some k) {history calls : List Call}
    (hascending : Ascending identifier (history ++ calls)) {s s₀ : UInt64} {record record₀ : Record}
    (hstored : ((run P history : Database CF).view k).records s₀ = some record₀) (hle : s ≤ s₀)
    (h : ((run P (history ++ calls) : Database CF).view k).records s = some record) :
    ((run P history : Database CF).view k).records s = some record := by
  refine (of_records_run_append hk history calls h).resolve_right ?_
  rintro ⟨call', hcall', hs⟩
  obtain ⟨call, hcall, hs₀⟩ := mem_numbersTo_of_records_run hk history hstored
  have hlt := (List.pairwise_append.1 hascending).2.2 call hcall call' hcall' s₀ hs₀ s hs
  exact absurd hlt (not_lt.2 hle)

/-- The last response of a query for one stream has the largest number of it. -/
theorem le_getLast_readStream {db : Database CF} (hdb : db.WellFormed) {k : StreamKey}
    {start : UInt64} {r last : QueryResponse} (hlast : (readStream db k start).getLast? = some last)
    (hr : r ∈ readStream db k start) : r.sequenceNumber ≤ last.sequenceNumber := by
  have hsorted := hdb.readStream_sorted k start
  obtain ⟨front, hfront⟩ := List.getLast?_eq_some_iff.1 hlast
  rw [hfront] at hsorted hr
  rcases List.mem_append.1 hr with hr | hr
  · exact ((List.pairwise_append.1 hsorted).2.2 r hr last (List.mem_singleton_self _)).le
  · rw [List.mem_singleton.1 hr]

/-- The next poll asks from one past the last number. -/
theorem toNat_nextNumber {responses : List QueryResponse} {last : QueryResponse} (start : UInt64)
    (hlast : responses.getLast? = some last) (hbound : last.sequenceNumber.toNat + 1 < 2 ^ 64) :
    (nextNumber start responses).toNat = last.sequenceNumber.toNat + 1 := by
  rw [nextNumber, hlast]
  dsimp only
  rw [UInt64.toNat_add, UInt64.toNat_one, Nat.mod_eq_of_lt hbound]

/-- A consumer goes on behind what it was given, -/
theorem lt_nextNumber {db : Database CF} (hdb : db.WellFormed) {k : StreamKey} {start : UInt64}
    (hbound : ∀ r ∈ readStream db k start, r.sequenceNumber.toNat + 1 < 2 ^ 64) :
    ∀ r ∈ readStream db k start, r.sequenceNumber < nextNumber start (readStream db k start) := by
  intro r hr
  obtain ⟨last, hlast⟩ :=
    Option.isSome_iff_exists.1 (List.getLast?_isSome.2 (List.ne_nil_of_mem hr))
  have hle := UInt64.le_iff_toNat_le.1 (le_getLast_readStream hdb hlast hr)
  rw [UInt64.lt_iff_toNat_lt, toNat_nextNumber start hlast (hbound last (List.mem_of_getLast? hlast))]
  omega

/-- and never before where it started. -/
theorem le_nextNumber {start : UInt64} {responses : List QueryResponse}
    (hstart : ∀ r ∈ responses, start ≤ r.sequenceNumber)
    (hbound : ∀ r ∈ responses, r.sequenceNumber.toNat + 1 < 2 ^ 64) :
    start ≤ nextNumber start responses := by
  cases hlast : responses.getLast? with
  | none => rw [nextNumber, hlast]
  | some last =>
      have hmem := List.mem_of_getLast? hlast
      have hle := UInt64.le_iff_toNat_le.1 (hstart last hmem)
      rw [UInt64.le_iff_toNat_le, toNat_nextNumber start hlast (hbound last hmem)]
      omega

/-- What a later query would find behind that, the consumer was given. -/
theorem mem_readStream_of_lt_nextNumber {P : Platform} {identifier : StreamIdentifier}
    {k : StreamKey} (hk : StreamKey.ofIdentifier? identifier = some k) {history calls : List Call}
    {start : UInt64} (hascending : Ascending identifier (history ++ calls))
    (hbound : ∀ r ∈ readStream (run P history : Database CF) k start,
      r.sequenceNumber.toNat + 1 < 2 ^ 64) {r : QueryResponse}
    (hr : r ∈ readStream (run P (history ++ calls) : Database CF) k start)
    (hlt : r.sequenceNumber < nextNumber start (readStream (run P history : Database CF) k start)) :
    r ∈ readStream (run P history : Database CF) k start := by
  have hwellFormed (history : List Call) : (run P history : Database CF).WellFormed :=
    (Database.sound_run P history).wellFormed
  obtain ⟨hle, hrecord⟩ := ((hwellFormed _).mem_readStream k start r).1 hr
  cases hlast : (readStream (run P history : Database CF) k start).getLast? with
  | none =>
      rw [nextNumber, hlast] at hlt
      exact absurd hle (not_le.2 hlt)
  | some last =>
      have hmem := List.mem_of_getLast? hlast
      rw [UInt64.lt_iff_toNat_lt, toNat_nextNumber start hlast (hbound last hmem)] at hlt
      refine ((hwellFormed _).mem_readStream k start r).2 ⟨hle, ?_⟩
      exact records_of_ascending hk hascending (((hwellFormed _).mem_readStream k start last).1 hmem).2
        (UInt64.le_iff_toNat_le.2 (Nat.le_of_lt_succ hlt)) hrecord

/-- The moments of the polls: the first one, and those of the rest. -/
theorem exists_poll_iff (holds : List Call → Prop) (history calls : List Call)
    (polls : List (List Call)) :
    (∃ n < (calls :: polls).length, holds (history ++ ((calls :: polls).take (n + 1)).flatten)) ↔
      holds (history ++ calls) ∨
        ∃ n < polls.length, holds (history ++ calls ++ (polls.take (n + 1)).flatten) := by
  constructor
  · rintro ⟨_ | n, hn, h⟩
    · exact Or.inl (by simpa using h)
    · exact Or.inr ⟨n, Nat.lt_of_succ_lt_succ hn, by simpa using h⟩
  · rintro (h | ⟨n, hn, h⟩)
    · exact ⟨0, Nat.succ_pos _, by simpa using h⟩
    · exact ⟨n + 1, Nat.succ_lt_succ hn, by simpa using h⟩

/-- What a consumer of a stream that has a key is given. -/
theorem follow_of_key (P : Platform) {identifier : StreamIdentifier} {k : StreamKey}
    (hk : StreamKey.ofIdentifier? identifier = some k) (history : List Call)
    (polls : List (List Call)) (start : UInt64)
    (hascending : Ascending identifier (history ++ polls.flatten))
    (hbound : ∀ call ∈ history ++ polls.flatten, ∀ s ∈ numbersTo identifier call,
      s.toNat + 1 < 2 ^ 64) :
    let received := follow P identifier (run P history : Database CF) start polls
    received.Pairwise (fun r r' => r.sequenceNumber < r'.sequenceNumber) ∧
    (∀ r ∈ received, start ≤ r.sequenceNumber) ∧
    ∀ r, r ∈ received ↔ ∃ n < polls.length, r ∈ readStream
      (run P (history ++ (polls.take (n + 1)).flatten) : Database CF) k start := by
  induction polls generalizing history start with
  | nil => exact ⟨List.Pairwise.nil, fun _ h => absurd h List.not_mem_nil,
      fun _ => iff_of_false List.not_mem_nil fun ⟨_, hn, _⟩ => absurd hn (Nat.not_lt_zero _)⟩
  | cons calls polls ih =>
      rw [List.flatten_cons, ← List.append_assoc] at hascending hbound
      have hwellFormed (history : List Call) : (run P history : Database CF).WellFormed :=
        (Database.sound_run P history).wellFormed
      set responses := readStream (run P (history ++ calls) : Database CF) k start with hresponses
      obtain ⟨hsorted, hfrom, hmem⟩ := ih (history ++ calls) (nextNumber start responses)
        hascending hbound
      have hfollow : follow P identifier (run P history : Database CF) start (calls :: polls) =
          responses ++ follow P identifier (run P (history ++ calls) : Database CF)
            (nextNumber start responses) polls := by
        rw [follow, ← run_append, Database.query_singleton _ hk]
      rw [hfollow]
      have hstart : ∀ r ∈ responses, start ≤ r.sequenceNumber := fun r hr =>
        (((hwellFormed _).mem_readStream k start r).1 hr).1
      have hstored : ∀ r ∈ responses, r.sequenceNumber.toNat + 1 < 2 ^ 64 := by
        intro r hr
        obtain ⟨call, hcall, hs⟩ := mem_numbersTo_of_records_run hk _
          (((hwellFormed _).mem_readStream k start r).1 hr).2
        exact hbound call (List.mem_append_left _ hcall) _ hs
      have hbehind := lt_nextNumber (hwellFormed (history ++ calls)) hstored
      have hnext : start ≤ nextNumber start responses := le_nextNumber hstart hstored
      refine ⟨?_, fun r hr => ?_, fun r => ?_⟩
      · exact List.pairwise_append.2 ⟨(hwellFormed _).readStream_sorted k start, hsorted,
          fun r hr r' hr' => (hbehind r hr).trans_le (hfrom r' hr')⟩
      · rcases List.mem_append.1 hr with hr | hr
        · exact hstart r hr
        · exact hnext.trans (hfrom r hr)
      · rw [List.mem_append, hmem,
          exists_poll_iff fun h => r ∈ readStream (run P h : Database CF) k start]
        constructor
        · refine Or.imp_right ?_
          rintro ⟨n, hn, hr⟩
          rw [(hwellFormed _).mem_readStream] at hr
          exact ⟨n, hn, ((hwellFormed _).mem_readStream k start r).2 ⟨hnext.trans hr.1, hr.2⟩⟩
        · rintro (hr | ⟨n, hn, hr⟩)
          · exact Or.inl hr
          · rcases lt_or_ge r.sequenceNumber (nextNumber start responses) with hlt | hge
            · have hsplit : polls.flatten =
                  (polls.take (n + 1)).flatten ++ (polls.drop (n + 1)).flatten := by
                rw [← List.flatten_append, List.take_append_drop]
              rw [hsplit, ← List.append_assoc] at hascending
              exact Or.inl (mem_readStream_of_lt_nextNumber hk
                (hascending.sublist (List.sublist_append_left _ _)) hstored hr hlt)
            · rw [(hwellFormed _).mem_readStream] at hr
              exact Or.inr ⟨n, hn, ((hwellFormed _).mem_readStream k _ r).2 ⟨hge, hr.2⟩⟩

/-- **A stream is followed exactly once.**  A consumer queries it again and again, each
time from one past the last number it was given; in between, calls write to the stream
in increasing order of numbers, and truncate it at will.  It is given the packets in
increasing order, so none twice, and all that were there at any of its queries. -/
theorem follow_exactlyOnce (P : Platform) (identifier : StreamIdentifier) (start : UInt64)
    (history : List Call) (polls : List (List Call))
    (hascending : Ascending identifier (history ++ polls.flatten))
    (hbound : ∀ call ∈ history ++ polls.flatten, ∀ s ∈ numbersTo identifier call,
      s.toNat + 1 < 2 ^ 64) :
    let received := follow P identifier (run P history : Database CF) start polls
    received.Pairwise (fun r r' => r.sequenceNumber < r'.sequenceNumber) ∧
    ∀ r, r ∈ received ↔ ∃ n < polls.length, r ∈ query
      (run P (history ++ (polls.take (n + 1)).flatten) : Database CF) [(identifier, start)] := by
  cases hk : StreamKey.ofIdentifier? identifier with
  | some k =>
      obtain ⟨hsorted, -, hmem⟩ := @follow_of_key CF _ P _ k hk history polls start hascending hbound
      simp only [Database.query_singleton _ hk]
      exact ⟨hsorted, hmem⟩
  | none =>
      have hnothing (db : Database CF) (start : UInt64) (polls : List (List Call)) :
          follow P identifier db start polls = [] := by
        induction polls generalizing db start with
        | nil => rfl
        | cons calls polls ih => rw [follow, query_singleton_of_none _ hk, List.nil_append, ih]
      simp only [query_singleton_of_none _ hk, hnothing]
      exact ⟨List.Pairwise.nil, fun r => by simp⟩

/-- Two packets are read by two queries, though the first was truncated in between. -/
theorem follow_exactlyOnce_samplePacket :
    (follow .protobuf (samplePacket 1).streamIdentifier
        (run .protobuf [] : Database (SortedTable Bytes Bytes)) 0
        [[.write false [(5, samplePacket 1)]],
          [.truncateOldest false 1, .write false [(6, samplePacket 2)]]]).Pairwise
      fun r r' => r.sequenceNumber < r'.sequenceNumber := by
  have hone : ∀ n (t : Int64), ∀ s ∈ numbersTo (samplePacket 1).streamIdentifier
      (.write false [(t, samplePacket n)]), s = n := by
    rintro n t s ⟨data, t', packet, hcall, hmem, -, -, rfl⟩
    cases hcall
    cases List.mem_singleton.1 hmem
    rfl
  have hnone : ∀ n s, s ∉ numbersTo (samplePacket 1).streamIdentifier (.truncateOldest false n) := by
    rintro n s ⟨data, t', packet, hcall, -⟩
    cases hcall
  refine (@follow_exactlyOnce (SortedTable Bytes Bytes) _ .protobuf _ 0 [] _ ?_ ?_).1
  · refine .cons (fun call hcall s hs s' hs' => ?_) (.cons (fun call _ s hs => ?_)
      (List.pairwise_singleton _ _))
    · rw [hone _ _ s hs]
      rcases List.mem_cons.1 hcall with rfl | hcall
      · exact absurd hs' (hnone _ _)
      · cases List.mem_singleton.1 hcall
        rw [hone _ _ s' hs']
        decide
    · exact absurd hs (hnone _ _)
  · intro call hcall s hs
    rcases List.mem_cons.1 hcall with rfl | hcall
    · rw [hone _ _ s hs]
      decide
    · rcases List.mem_cons.1 hcall with rfl | hcall
      · exact absurd hs (hnone _ _)
      · cases List.mem_singleton.1 hcall
        rw [hone _ _ s hs]
        decide

end RocksDatabase
end UDataPacketBroker

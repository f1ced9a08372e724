import ZhiyanRag.Lib.Steps
import Mathlib.Data.List.Nodup

/-!
# Connection pool

`_ReusableOllamaHttpClient` of `embedding.py`: requests take a connection from a bounded pool and
give it back, or wait for one. A request gives its connection back on every exit but one: an
exception that is neither an `OSError` nor an `HTTPException` leaves it registered (`leak_blocks`).
Without such exceptions the pool is sound (`pool_sound`).
-/

namespace ZhiyanRag.Retrieval

open Steps

/-! ### The client -/

/-- `_OLLAMA_MAX_HTTP_CONNECTIONS`. -/
def ollamaMaxHttpConnections : Nat := 2

/-- `_connections`, `_available` and `_closed`; connection objects are numbered as they are made.
`waiting` and `woken` are the threads in `wait` and those that a `notify` let out of it. -/
structure ReusableOllamaHttpClient where
  connections : List Nat
  available : List Nat
  closed : Bool
  made : Nat
  waiting : Nat
  woken : Nat
  deriving DecidableEq

namespace ReusableOllamaHttpClient

def init : ReusableOllamaHttpClient := ⟨[], [], false, 0, 0, 0⟩

/-- `_condition.notify()`. -/
def notify (client : ReusableOllamaHttpClient) : ReusableOllamaHttpClient :=
  if client.waiting = 0 then client
    else { client with waiting := client.waiting - 1, woken := client.woken + 1 }

/-- `_condition.notify_all()`. -/
def notifyAll (client : ReusableOllamaHttpClient) : ReusableOllamaHttpClient :=
  { client with waiting := 0, woken := client.woken + client.waiting }

end ReusableOllamaHttpClient

/-- The classes of exceptions that `request` tells apart. -/
inductive ExchangeException
  | osError
  | httpException
  | other
  deriving DecidableEq

/-- What `request` reads of a response. -/
structure HttpResponse where
  status : Int
  willClose : Bool
  connectionHeader : Option String
  raw : List UInt8
  deriving DecidableEq

/-- `discard`. -/
def HttpResponse.discard (response : HttpResponse) : Bool :=
  response.willClose || decide ((response.connectionHeader.getD "").toLower = "close")

/-- How a call ended. -/
abbrev RequestResult := Except ExchangeException (List UInt8)

/-- Where a call of `request` is. -/
inductive RequestState
  | acquiring
  | waiting
  | exchanging (connection : Nat)
  | releasing (connection : Nat) (discard : Bool) (result : RequestResult)
  | closing (connection : Nat) (result : RequestResult)
  | finished (result : RequestResult)
  deriving DecidableEq

/-- Where a call of `close` is. -/
inductive CloseState
  | start
  | closing (connections : List Nat)
  | finished (result : Except ExchangeException Unit)
  deriving DecidableEq

inductive ClientThread
  | request (state : RequestState)
  | close (state : CloseState)
  deriving DecidableEq

/-- What comes from outside in the next step: what the constructor of a connection raises, what the
exchange over a connection returns or raises, what `connection.close()` raises. -/
inductive ClientChoice
  | acquire (failure : Option ExchangeException)
  | wake
  | exchange (result : Except ExchangeException HttpResponse)
  | release
  | closeConnection (failure : Option ExchangeException)
  | closeClient
  deriving DecidableEq

/-- One turn of the loop of `_acquire`. -/
def acquire (client : ReusableOllamaHttpClient) (failure : Option ExchangeException) :
    ReusableOllamaHttpClient × RequestState :=
  if client.closed then (client, .finished (.error .osError))
  else
    match client.available.getLast? with
    | some connection =>
      ({ client with available := client.available.dropLast }, .exchanging connection)
    | none =>
      if client.connections.length < ollamaMaxHttpConnections then
        match failure with
        | some e => (client, .finished (.error e))
        | none =>
          ({ client with
              connections := client.connections ++ [client.made], made := client.made + 1 },
            .exchanging client.made)
      else ({ client with waiting := client.waiting + 1 }, .waiting)

/-- `request` after the exchange: the exception that it catches, `_OllamaHttpStatusError` among
them, or the response. -/
def afterExchange (connection : Nat) : Except ExchangeException HttpResponse → RequestState
  | .error .other => .finished (.error .other)
  | .error e => .releasing connection true (.error e)
  | .ok response =>
    if 200 ≤ response.status ∧ response.status < 300
      then .releasing connection response.discard (.ok response.raw)
    else .releasing connection true (.error .osError)

/-- The critical section of `_release`. -/
def release (client : ReusableOllamaHttpClient) (connection : Nat) (discard : Bool)
    (result : RequestResult) : ReusableOllamaHttpClient × RequestState :=
  if discard || client.closed then
    ({ client with
        connections := client.connections.filter fun candidate => decide (candidate ≠ connection)
        available := client.available.filter fun candidate => decide (candidate ≠ connection)
          }.notify,
      .closing connection result)
  else if client.available.contains connection then (client.notify, .finished result)
  else ({ client with available := client.available ++ [connection] }.notify, .finished result)

/-- `connection.close()`, of which an `OSError` is ignored. -/
def closeFailure : Option ExchangeException → Option ExchangeException
  | some .osError | none => none
  | some e => some e

def RequestState.next (client : ReusableOllamaHttpClient) :
    RequestState → ClientChoice → Option (ReusableOllamaHttpClient × RequestState)
  | .acquiring, .acquire failure => some (Retrieval.acquire client failure)
  | .waiting, .wake => if client.woken = 0
      then none else some ({ client with woken := client.woken - 1 }, .acquiring)
  | .exchanging connection, .exchange result => some (client, afterExchange connection result)
  | .releasing connection discard result, .release =>
    some (Retrieval.release client connection discard result)
  | .closing _ result, .closeConnection failure =>
    some (client, .finished ((closeFailure failure).elim result .error))
  | _, _ => none

def CloseState.next (client : ReusableOllamaHttpClient) :
    CloseState → ClientChoice → Option (ReusableOllamaHttpClient × CloseState)
  | .start, .closeClient =>
    some ({ client with closed := true, connections := [], available := [] }.notifyAll,
      .closing client.connections)
  | .closing (_ :: rest), .closeConnection failure =>
    some (client, (closeFailure failure).elim (.closing rest) fun e => .finished (.error e))
  | .closing [], .closeConnection _ => some (client, .finished (.ok ()))
  | _, _ => none

def ClientThread.next (client : ReusableOllamaHttpClient) :
    ClientThread → ClientChoice → Option (ReusableOllamaHttpClient × ClientThread)
  | .request state, choice => (state.next client choice).map fun r => (r.1, .request r.2)
  | .close state, choice => (state.next client choice).map fun r => (r.1, .close r.2)

/-- Calls start at the beginning. -/
def ClientThread.canStart (_ : Pool ReusableOllamaHttpClient ClientThread)
    (thread : ClientThread) : Bool :=
  decide (thread = .request .acquiring ∨ thread = .close .start)

/-- Any number of calls of `request` and `close`, one step of one call after the other. -/
abbrev clientStep :
    Pool ReusableOllamaHttpClient ClientThread → PoolLabel ClientThread ClientChoice →
    Option (Pool ReusableOllamaHttpClient ClientThread) :=
  Pool.step ClientThread.canStart ClientThread.next

/-! ### Soundness -/

/-- The connection that a request uses, the closing of a discarded one included. -/
def ClientThread.uses : ClientThread → Option Nat
  | .request (.exchanging connection) | .request (.releasing connection _ _)
  | .request (.closing connection _) => some connection
  | _ => none

/-- The connection that a request has acquired and not yet released. -/
def ClientThread.holds : ClientThread → Option Nat
  | .request (.exchanging connection) | .request (.releasing connection _ _) => some connection
  | _ => none

/-- A request in progress. -/
def ClientThread.inProgress : ClientThread → Bool
  | .request (.finished _) | .close _ => false
  | .request _ => true

/-- The pool neither leaks nor shares. -/
structure PoolSound (p : Pool ReusableOllamaHttpClient ClientThread) : Prop where
  bounded : p.world.connections.length ≤ ollamaMaxHttpConnections
  registered : ∀ connection ∈ p.world.available, connection ∈ p.world.connections
  listedOnce : p.world.available.Nodup
  exclusive : ∀ (i j : Nat) (t u : ClientThread) (connection : Nat), p.threads[i]? = some t →
    p.threads[j]? = some u → t.uses = some connection → u.uses = some connection → i = j
  held : p.world.closed = false → ∀ connection,
    connection ∈ p.world.connections ∧ connection ∉ p.world.available ↔ ∃ t ∈ p.threads,
      t.holds = some connection
  neverWaits : (∀ t ∈ p.threads, t.inProgress = false) → ∀ failure,
    (acquire p.world failure).2 ≠ .waiting

/-- No exchange raises an exception that `request` does not catch. -/
def Caught : PoolLabel ClientThread ClientChoice → Prop
  | .act _ choice => choice ≠ .exchange (.error .other)
  | .spawn _ => True

instance : DecidablePred Caught := fun label => by
  cases label <;> unfold Caught <;> infer_instance

/-! ### What a step does -/

/-- The client up to its threads in `wait`. -/
structure SamePool (client client' : ReusableOllamaHttpClient) : Prop where
  connections : client'.connections = client.connections
  available : client'.available = client.available
  closed : client'.closed = client.closed
  made : client'.made = client.made

theorem SamePool.refl (client : ReusableOllamaHttpClient) : SamePool client client :=
  ⟨rfl, rfl, rfl, rfl⟩

theorem samePool_notify (client : ReusableOllamaHttpClient) : SamePool client client.notify := by
  unfold ReusableOllamaHttpClient.notify
  split
  · exact .refl _
  · exact ⟨rfl, rfl, rfl, rfl⟩

/-- What a step of a call is to the pool. -/
inductive ClientEffect : ReusableOllamaHttpClient → ClientThread → ReusableOllamaHttpClient →
    ClientThread → Prop
  | quiet {client client' t t'} : SamePool client client' →
      (∀ c, t'.uses = some c → t.uses = some c) → t'.holds = t.holds →
      ClientEffect client t client' t'
  | take {client client' t connection} : client.closed = false →
      client.available = client'.available ++ [connection] →
      client'.connections = client.connections → client'.closed = false →
      client'.made = client.made →
      t.holds = none → ClientEffect client t client' (.request (.exchanging connection))
  | make {client client' t} : client.closed = false → client.available = [] →
      client.connections.length < ollamaMaxHttpConnections →
      client'.connections = client.connections ++ [client.made] →
      client'.available = [] → client'.closed = false → client'.made = client.made + 1 →
      t.holds = none →
      ClientEffect client t client' (.request (.exchanging client.made))
  | drop {client client' connection discard result} :
      client'.connections = (client.connections.filter
        fun candidate => decide (candidate ≠ connection)) →
      client'.available =
        (client.available.filter fun candidate => decide (candidate ≠ connection)) →
      client'.closed = client.closed → client'.made = client.made →
      ClientEffect client (.request (.releasing connection discard result)) client'
        (.request (.closing connection result))
  | giveBack {client client' connection discard result} : client.closed = false →
      client'.connections = client.connections →
      client'.available = client.available ++ [connection] →
      client'.closed = false → client'.made = client.made →
      ClientEffect client (.request (.releasing connection discard result)) client'
        (.request (.finished result))
  | close {client client' state} : client'.connections = [] → client'.available = [] →
      client'.closed = true → client'.made = client.made →
      ClientEffect client (.close .start) client' (.close state)

theorem acquire_effect (client : ReusableOllamaHttpClient) (failure : Option ExchangeException) :
    ClientEffect client (.request .acquiring) (acquire client failure).1
      (.request (acquire client failure).2) := by
  unfold acquire
  split
  · exact .quiet (.refl _) (fun _ h => by cases h) rfl
  · rename_i hopen
    rw [Bool.not_eq_true] at hopen
    split
    · rename_i connection hlast
      refine .take hopen ?_ rfl hopen rfl rfl
      exact (List.dropLast_append_getLast? connection hlast).symm
    · rename_i hnone
      rw [List.getLast?_eq_none_iff] at hnone
      split
      · rename_i hroom
        split
        · exact .quiet (.refl _) (fun _ h => by cases h) rfl
        · exact .make hopen hnone hroom rfl hnone hopen rfl rfl
      · exact .quiet ⟨rfl, rfl, rfl, rfl⟩ (fun _ h => by cases h) rfl

theorem release_effect {client : ReusableOllamaHttpClient} {connection : Nat}
    (hheld : connection ∉ client.available) (discard : Bool) (result : RequestResult) :
    ClientEffect client (.request (.releasing connection discard result))
      (release client connection discard result).1
        (.request (release client connection discard result).2) := by
  unfold release
  split
  · obtain ⟨hconnections, havailable, hclosed, hmade⟩ := samePool_notify { client with
      connections := client.connections.filter fun candidate => decide (candidate ≠ connection)
      available := client.available.filter fun candidate => decide (candidate ≠ connection) }
    exact .drop hconnections havailable hclosed hmade
  · rename_i hkeep
    rw [Bool.or_eq_true, not_or, Bool.not_eq_true, Bool.not_eq_true] at hkeep
    rw [if_neg fun h => hheld (List.contains_iff_mem.mp h)]
    obtain ⟨hconnections, havailable, hclosed, hmade⟩ := samePool_notify { client with
      available := client.available ++ [connection] }
    exact .giveBack hkeep.2 hconnections havailable (hclosed.trans hkeep.2) hmade

/-- Every step of a call, if it catches what the exchange raises. -/
theorem next_effect {client client' : ReusableOllamaHttpClient} {t t' : ClientThread}
    {choice : ClientChoice} (hcaught : choice ≠ .exchange (.error .other))
    (hheld : ∀ c, t.holds = some c → c ∉ client.available)
    (h : t.next client choice = some (client', t')) : ClientEffect client t client' t' := by
  cases t with
  | request state =>
    obtain ⟨⟨client'', state'⟩, hnext, hr⟩ := Option.map_eq_some_iff.mp h
    cases hr
    unfold RequestState.next at hnext
    split at hnext
    · rename_i failure
      have heffect := acquire_effect client failure
      rwa [Option.some.inj hnext] at heffect
    · split at hnext
      · cases hnext
      · cases hnext
        exact .quiet ⟨rfl, rfl, rfl, rfl⟩ (fun _ h => by cases h) rfl
    · rename_i connection result
      cases hnext
      have hafter : ∃ discard r, afterExchange connection result =
          .releasing connection discard r := by
        unfold afterExchange
        split
        · exact absurd rfl hcaught
        · exact ⟨_, _, rfl⟩
        · split
          · exact ⟨_, _, rfl⟩
          · exact ⟨_, _, rfl⟩
      obtain ⟨discard, r, hafter⟩ := hafter
      rw [hafter]
      exact .quiet (.refl _) (fun _ h => h) rfl
    · rename_i connection discard result
      have heffect := release_effect (hheld connection rfl) discard result
      rwa [Option.some.inj hnext] at heffect
    · cases hnext
      exact .quiet (.refl _) (fun _ h => by cases h) rfl
    · cases hnext
  | close state =>
    obtain ⟨⟨client'', state'⟩, hnext, hr⟩ := Option.map_eq_some_iff.mp h
    cases hr
    unfold CloseState.next at hnext
    split at hnext
    · cases hnext
      exact .close rfl rfl rfl rfl
    · cases hnext
      exact .quiet (.refl _) (fun _ h => by cases h) rfl
    · cases hnext
      exact .quiet (.refl _) (fun _ h => by cases h) rfl
    · cases hnext

/-! ### The invariant -/

def clientAssertions : Assertions ReusableOllamaHttpClient ClientThread where
  world client := client.connections.length ≤ ollamaMaxHttpConnections ∧
    (∀ c ∈ client.available, c ∈ client.connections) ∧ client.available.Nodup ∧
    ∀ c ∈ client.connections, c < client.made
  thread client t := (∀ c, t.uses = some c → c < client.made ∧ c ∉ client.available) ∧
    ∀ c, t.holds = some c → client.closed = false → c ∈ client.connections
  pair _ t u := ∀ c, t.uses = some c → u.uses ≠ some c

theorem uses_of_holds {t : ClientThread} {c : Nat} (h : t.holds = some c) : t.uses = some c := by
  unfold ClientThread.holds at h
  split at h
  · exact h
  · exact h
  · cases h

/-- A step keeps the client in order. -/
theorem ClientEffect.own_world {client client' : ReusableOllamaHttpClient} {t t' : ClientThread}
    (h : ClientEffect client t client' t') (hworld : clientAssertions.world client)
    (hown : clientAssertions.thread client t) : clientAssertions.world client' := by
  obtain ⟨hbound, hregistered, hnodup, hmade⟩ := hworld
  cases h with
  | quiet hsame hsub heq =>
    obtain ⟨hconnections, havailable, hclosed, hnumber⟩ := hsame
    refine ⟨?_, ?_, ?_, ?_⟩
    · rwa [hconnections]
    · rwa [havailable, hconnections]
    · rwa [havailable]
    · rwa [hconnections, hnumber]
  | @take _ _ connection hopen havailable hconnections hopen' hnumber hnone =>
    rw [havailable, List.nodup_append] at hnodup
    refine ⟨?_, ?_, hnodup.1, ?_⟩
    · rwa [hconnections]
    · intro c hc
      rw [hconnections]
      exact hregistered c (by simp [havailable, hc])
    · rwa [hconnections, hnumber]
  | make hopen hempty hroom hconnections havailable hopen' hnumber hnone =>
    refine ⟨?_, ?_, ?_, ?_⟩
    · rw [hconnections, List.length_append]
      exact hroom
    · rw [havailable]
      exact fun c hc => absurd hc List.not_mem_nil
    · rw [havailable]
      exact List.nodup_nil
    · intro c hc
      rw [hconnections, List.mem_append, List.mem_singleton] at hc
      rw [hnumber]
      rcases hc with hc | rfl
      · exact Nat.lt_succ_of_lt (hmade c hc)
      · exact Nat.lt_succ_self _
  | @drop _ connection discard result hconnections havailable hclosed hnumber =>
    refine ⟨?_, ?_, ?_, ?_⟩
    · rw [hconnections]
      exact Nat.le_trans (List.length_filter_le _ _) hbound
    · intro c hc
      rw [havailable, List.mem_filter] at hc
      rw [hconnections, List.mem_filter]
      exact ⟨hregistered c hc.1, hc.2⟩
    · rw [havailable]
      exact hnodup.filter _
    · intro c hc
      rw [hconnections] at hc
      rw [hnumber]
      exact hmade c (List.mem_of_mem_filter hc)
  | @giveBack _ connection discard result hopen hconnections havailable hopen' hnumber =>
    refine ⟨?_, ?_, ?_, ?_⟩
    · rwa [hconnections]
    · intro c hc
      rw [havailable, List.mem_append, List.mem_singleton] at hc
      rw [hconnections]
      rcases hc with hc | rfl
      · exact hregistered c hc
      · exact hown.2 _ rfl hopen
    · rw [havailable, List.nodup_append]
      refine ⟨hnodup, List.nodup_singleton _, fun c hc d hd => ?_⟩
      rw [List.mem_singleton.mp hd]
      rintro rfl
      exact (hown.1 _ rfl).2 hc
    · rwa [hconnections, hnumber]
  | close hconnections havailable hclosed hnumber =>
    refine ⟨?_, ?_, ?_, ?_⟩
    · rw [hconnections]
      exact Nat.zero_le _
    · rw [havailable]
      exact fun c hc => absurd hc List.not_mem_nil
    · rw [havailable]
      exact List.nodup_nil
    · rw [hconnections]
      exact fun c hc => absurd hc List.not_mem_nil

/-- A step keeps what its own call has. -/
theorem ClientEffect.own_thread {client client' : ReusableOllamaHttpClient} {t t' : ClientThread}
    (h : ClientEffect client t client' t') (hworld : clientAssertions.world client)
    (hown : clientAssertions.thread client t) : clientAssertions.thread client' t' := by
  obtain ⟨-, hregistered, hnodup, hmade⟩ := hworld
  obtain ⟨huses, hholds⟩ := hown
  cases h with
  | quiet hsame hsub heq =>
    obtain ⟨hconnections, havailable, hclosed, hnumber⟩ := hsame
    refine ⟨fun c hc => ?_, ?_⟩
    · rw [hnumber, havailable]
      exact huses c (hsub c hc)
    · rwa [heq, hclosed, hconnections]
  | @take _ _ connection hopen havailable hconnections hopen' hnumber hnone =>
    have hmem : connection ∈ client.available := by simp [havailable]
    rw [havailable, List.nodup_append] at hnodup
    constructor
    · rintro c ⟨⟩
      rw [hnumber]
      exact ⟨hmade _ (hregistered _ hmem), fun h => hnodup.2.2 _ h _ List.mem_cons_self rfl⟩
    · rintro c ⟨⟩ -
      rw [hconnections]
      exact hregistered _ hmem
  | make hopen hempty hroom hconnections havailable hopen' hnumber hnone =>
    constructor
    · rintro c ⟨⟩
      rw [hnumber, havailable]
      exact ⟨Nat.lt_succ_self _, List.not_mem_nil⟩
    · rintro c ⟨⟩ -
      rw [hconnections]
      simp
  | @drop _ connection discard result hconnections havailable hclosed hnumber =>
    constructor
    · rintro c ⟨⟩
      rw [hnumber, havailable]
      exact ⟨(huses _ rfl).1, fun h => (huses _ rfl).2 (List.mem_of_mem_filter h)⟩
    · intro c hc
      cases hc
  | giveBack | close =>
    constructor
    · intro c hc
      cases hc
    · intro c hc
      cases hc

/-- A step of one call leaves every other one what it has. -/
theorem ClientEffect.other {client client' : ReusableOllamaHttpClient} {t t' u : ClientThread}
    (h : ClientEffect client t client' t') (hworld : clientAssertions.world client)
    (hu : clientAssertions.thread client u)
    (htu : clientAssertions.pair client t u) :
    clientAssertions.thread client' u ∧ clientAssertions.pair client' t' u := by
  obtain ⟨-, hregistered, -, hmade⟩ := hworld
  obtain ⟨huses, hholds⟩ := hu
  cases h with
  | quiet hsame hsub heq =>
    obtain ⟨hconnections, havailable, hclosed, hnumber⟩ := hsame
    refine ⟨⟨?_, ?_⟩, fun c hc => htu c (hsub c hc)⟩
    · rwa [hnumber, havailable]
    · rwa [hclosed, hconnections]
  | @take _ _ connection hopen havailable hconnections hopen' hnumber hnone =>
    refine ⟨⟨fun c hc => ?_, fun c hc _ => ?_⟩, ?_⟩
    · rw [hnumber]
      refine ⟨(huses c hc).1, fun hmem => (huses c hc).2 ?_⟩
      rw [havailable]
      exact List.mem_append_left _ hmem
    · rw [hconnections]
      exact hholds c hc hopen
    · rintro c ⟨⟩ hc
      refine (huses _ hc).2 ?_
      rw [havailable]
      exact List.mem_append_right _ List.mem_cons_self
  | make hopen hempty hroom hconnections havailable hopen' hnumber hnone =>
    refine ⟨⟨fun c hc => ?_, fun c hc _ => ?_⟩, ?_⟩
    · rw [hnumber, havailable]
      exact ⟨Nat.lt_succ_of_lt (huses c hc).1, List.not_mem_nil⟩
    · rw [hconnections]
      exact List.mem_append_left _ (hholds c hc hopen)
    · rintro c ⟨⟩ hc
      exact Nat.lt_irrefl _ (huses _ hc).1
  | @drop _ connection discard result hconnections havailable hclosed hnumber =>
    refine ⟨⟨fun c hc => ?_, fun c hc hopen => ?_⟩, htu⟩
    · rw [hnumber, havailable]
      exact ⟨(huses c hc).1, fun hmem => (huses c hc).2 (List.mem_of_mem_filter hmem)⟩
    · rw [hconnections, List.mem_filter]
      refine ⟨hholds c hc (hclosed ▸ hopen), decide_eq_true ?_⟩
      rintro rfl
      exact htu _ rfl (uses_of_holds hc)
  | @giveBack _ connection discard result hopen hconnections havailable hopen' hnumber =>
    refine ⟨⟨fun c hc => ?_, fun c hc _ => ?_⟩, fun c hc => by cases hc⟩
    · rw [hnumber, havailable, List.mem_append, List.mem_singleton, not_or]
      refine ⟨(huses c hc).1, (huses c hc).2, ?_⟩
      rintro rfl
      exact htu _ rfl hc
    · rw [hconnections]
      exact hholds c hc hopen
  | close hconnections havailable hclosed hnumber =>
    refine ⟨⟨fun c hc => ?_, fun c hc hopen => ?_⟩, fun c hc => by cases hc⟩
    · rw [hnumber, havailable]
      exact ⟨(huses c hc).1, List.not_mem_nil⟩
    · rw [hclosed] at hopen
      cases hopen

theorem clientOutline :
    Outline ClientThread.canStart ClientThread.next (fun _ => Caught) clientAssertions where
  spawn p t _ _ hstart := by
    have hnone : t.uses = none ∧ t.holds = none := by
      rcases of_decide_eq_true hstart with rfl | rfl
      · exact ⟨rfl, rfl⟩
      · exact ⟨rfl, rfl⟩
    refine ⟨⟨fun c hc => ?_, fun c hc => ?_⟩, fun j u hu => ⟨fun c hc => ?_, fun c _ hc => ?_⟩⟩
    · rw [hnone.1] at hc
      cases hc
    · rw [hnone.2] at hc
      cases hc
    · rw [hnone.1] at hc
      cases hc
    · rw [hnone.1] at hc
      cases hc
  own p i choice t client' t' hp hcaught ht hstep := by
    have heffect :=
      next_effect hcaught (fun c hc => ((hp.thread i t ht).1 c (uses_of_holds hc)).2) hstep
    exact ⟨heffect.own_world hp.world (hp.thread i t ht),
      heffect.own_thread hp.world (hp.thread i t ht)⟩
  other p i choice t client' t' j u hp hcaught ht hstep hij hu := by
    have heffect :=
      next_effect hcaught (fun c hc => ((hp.thread i t ht).1 c (uses_of_holds hc)).2) hstep
    obtain ⟨hthread, hpair⟩ := heffect.other hp.world (hp.thread j u hu) (hp.pair i j t u hij ht hu)
    exact ⟨hthread, hpair, fun c hc hc' => hpair c hc' hc⟩
  rest p _ _ _ _ _ j k u v hp _ _ _ _ _ hjk hu hv := hp.pair j k u v hjk hu hv

/-! ### Nothing leaks -/

/-- What is registered and not available is held by a request. -/
def Accounted (p : Pool ReusableOllamaHttpClient ClientThread) : Prop :=
  ∀ c ∈ p.world.connections, c ∉ p.world.available → ∃ (i : Nat) (t : ClientThread),
    p.threads[i]? = some t ∧ t.holds = some c

theorem ClientEffect.accounted {p : Pool ReusableOllamaHttpClient ClientThread} {i : Nat}
    {t t' : ClientThread} {client' : ReusableOllamaHttpClient}
    (h : ClientEffect p.world t client' t') (ht : p.threads[i]? = some t) (hp : Accounted p) :
    Accounted ⟨client', p.threads.set i t'⟩ := by
  have hself : (p.threads.set i t')[i]? = some t' :=
    List.getElem?_set_self (List.getElem?_eq_some_iff.mp ht).1
  -- a holder other than the thread that moves still holds
  have hkeep : ∀ c, c ∈ p.world.connections → c ∉ p.world.available → t.holds ≠ some c →
      ∃ (j : Nat) (u : ClientThread), (p.threads.set i t')[j]? = some u ∧ u.holds = some c := by
    intro c hc hnot hne
    obtain ⟨j, u, hu, hholds⟩ := hp c hc hnot
    refine ⟨j, u, ?_, hholds⟩
    rw [List.getElem?_set_ne]
    · exact hu
    · rintro rfl
      rw [ht] at hu
      cases hu
      exact hne hholds
  intro c hc hnot
  change c ∈ client'.connections at hc
  change c ∉ client'.available at hnot
  cases h with
  | quiet hsame hsub heq =>
    rw [hsame.connections] at hc
    rw [hsame.available] at hnot
    by_cases hmine : t.holds = some c
    · exact ⟨i, t', hself, heq.trans hmine⟩
    · exact hkeep c hc hnot hmine
  | @take _ _ connection hopen havailable hconnections hopen' hnumber hnone =>
    by_cases hmine : c = connection
    · exact ⟨i, _, hself, congrArg some hmine.symm⟩
    · rw [hconnections] at hc
      refine hkeep c hc ?_ (by rw [hnone]; exact fun h => by cases h)
      rw [havailable, List.mem_append, List.mem_singleton, not_or]
      exact ⟨hnot, hmine⟩
  | make hopen hempty hroom hconnections havailable hopen' hnumber hnone =>
    by_cases hmine : c = p.world.made
    · exact ⟨i, _, hself, congrArg some hmine.symm⟩
    · rw [hconnections, List.mem_append, List.mem_singleton, or_iff_left hmine] at hc
      refine hkeep c hc ?_ (by rw [hnone]; exact fun h => by cases h)
      rw [hempty]
      exact List.not_mem_nil
  | @drop _ connection discard result hconnections havailable hclosed hnumber =>
    rw [hconnections, List.mem_filter] at hc
    have hne : c ≠ connection := of_decide_eq_true hc.2
    refine hkeep c hc.1 (fun hmem => hnot ?_) fun h => hne (Option.some.inj h).symm
    rw [havailable, List.mem_filter]
    exact ⟨hmem, hc.2⟩
  | @giveBack _ connection discard result hopen hconnections havailable hopen' hnumber =>
    rw [hconnections] at hc
    rw [havailable, List.mem_append, List.mem_singleton, not_or] at hnot
    exact hkeep c hc hnot.1 fun h => hnot.2 (Option.some.inj h).symm
  | close hconnections havailable hclosed hnumber =>
    rw [hconnections] at hc
    cases hc

theorem accounted_step {p p' : Pool ReusableOllamaHttpClient ClientThread}
    {label : PoolLabel ClientThread ClientChoice} (hp : clientAssertions.Holds p)
    (hacc : Accounted p) (hcaught : Caught label) (h : clientStep p label = some p') :
    Accounted p' := by
  cases label with
  | spawn t =>
    obtain ⟨-, rfl⟩ := Pool.step_spawn h
    intro c hc hnot
    obtain ⟨i, u, hu, hholds⟩ := hacc c hc hnot
    refine ⟨i, u, ?_, hholds⟩
    rw [List.getElem?_append_left (List.getElem?_eq_some_iff.mp hu).1]
    exact hu
  | act i choice =>
    obtain ⟨t, client', t', ht, hstep, rfl⟩ := Pool.step_act h
    exact (next_effect hcaught (fun c hc => ((hp.thread i t ht).1 c (uses_of_holds hc)).2)
      hstep).accounted ht hacc

theorem acquire_waits {client : ReusableOllamaHttpClient} {failure : Option ExchangeException}
    (h : (acquire client failure).2 = .waiting) :
    client.closed = false ∧ client.available = [] ∧
    ollamaMaxHttpConnections ≤ client.connections.length := by
  unfold acquire at h
  split at h
  · cases h
  · rename_i hopen
    split at h
    · cases h
    · rename_i hnone
      split at h
      · split at h <;> cases h
      · rename_i hfull
        exact ⟨Bool.not_eq_true _ ▸ hopen, List.getLast?_eq_none_iff.mp hnone,
          Nat.le_of_not_lt hfull⟩

/-- The assertions, and that nothing leaked, are what soundness says. -/
theorem poolSound_of_holds {p : Pool ReusableOllamaHttpClient ClientThread}
    (hp : clientAssertions.Holds p) (hacc : Accounted p) : PoolSound p where
  bounded := hp.world.1
  registered := hp.world.2.1
  listedOnce := hp.world.2.2.1
  exclusive i j t u c ht hu hc hc' := by
    by_contra hij
    exact hp.pair i j t u hij ht hu c hc hc'
  held hopen c := by
    constructor
    · rintro ⟨hc, hnot⟩
      obtain ⟨i, t, ht, hholds⟩ := hacc c hc hnot
      exact ⟨t, List.mem_of_getElem? ht, hholds⟩
    · rintro ⟨t, hmem, hholds⟩
      obtain ⟨i, ht⟩ := List.mem_iff_getElem?.mp hmem
      obtain ⟨huses, hregistered⟩ := hp.thread i t ht
      exact ⟨hregistered c hholds hopen, (huses c (uses_of_holds hholds)).2⟩
  neverWaits hidle failure hwaits := by
    obtain ⟨-, hempty, hfull⟩ := acquire_waits hwaits
    obtain ⟨c, rest, hconnections⟩ :=
      List.exists_cons_of_length_pos (Nat.lt_of_lt_of_le (by decide) hfull)
    obtain ⟨i, t, ht, hholds⟩ :=
      hacc c (hconnections ▸ List.mem_cons_self) (hempty ▸ List.not_mem_nil)
    have hbusy : t.inProgress = true := by
      unfold ClientThread.holds at hholds
      split at hholds
      · rfl
      · rfl
      · cases hholds
    rw [hidle t (List.mem_of_getElem? ht)] at hbusy
    cases hbusy

/-- Every state of a run in which the exchanges raise only what `request` catches. -/
theorem pool_sound {labels : List (PoolLabel ClientThread ClientChoice)}
    {p : Pool ReusableOllamaHttpClient ClientThread}
    (h : GuardedRun clientStep (fun _ => Caught) ⟨.init, []⟩ labels p) : PoolSound p := by
  have hstart : clientAssertions.Holds ⟨.init, []⟩ ∧ Accounted ⟨.init, []⟩ := by
    refine ⟨Assertions.holds_nil ⟨Nat.zero_le _, ?_, List.nodup_nil, ?_⟩, ?_⟩
    · exact fun c hc => absurd hc List.not_mem_nil
    · exact fun c hc => absurd hc List.not_mem_nil
    · exact fun c hc => absurd hc List.not_mem_nil
  have hend := h.invariant (I := fun p => clientAssertions.Holds p ∧ Accounted p) ?_ hstart
  · exact poolSound_of_holds hend.1 hend.2
  · rintro q label q' ⟨hq, hacc⟩ hcaught hstep
    refine ⟨clientOutline.holds_of_run (.cons hcaught hstep (.nil _)) hq,
      accounted_step hq hacc hcaught hstep⟩

/-- Two requests over two connections, and a `close` between the exchange of the second one and its
release. -/
theorem pool_sound_two : ∃ p, PoolSound p ∧ p.world.closed = true :=
  ⟨_, pool_sound (GuardedRun.of_eval (rfl : guardedRun? clientStep (fun _ => Caught) ⟨.init, []⟩ [
    .spawn (.request .acquiring), .act 0 (.acquire none), .spawn (.request .acquiring),
    .act 1 (.acquire none),
    .act 0 (.exchange (.ok ⟨200, false, none, []⟩)), .act 0 .release,
    .act 1 (.exchange (.error .httpException)),
    .spawn (.close .start), .act 2 .closeClient, .act 1 .release,
    .act 1 (.closeConnection (some .osError))] = some _)), rfl⟩

/-- Two exceptions that are not caught block every later request. -/
theorem leak_blocks : ∃ labels p, run clientStep ⟨.init, []⟩ labels = some p ∧ ¬PoolSound p := by
  refine ⟨[.spawn (.request .acquiring), .act 0 (.acquire none), .act 0 (.exchange (.error .other)),
    .spawn (.request .acquiring), .act 1 (.acquire none), .act 1 (.exchange (.error .other))], _,
      rfl, fun h => ?_⟩
  exact h.neverWaits (by decide) none rfl

end ZhiyanRag.Retrieval

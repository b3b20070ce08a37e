import Mathlib.Logic.Function.Basic
import Mathlib.Data.List.Nodup

/-!
# A message bus

A server carries out the operations of each client in the order in which the client has
sent them. It hands a published message to the subscriptions that it knows at that
moment; one that it learns later gets nothing of the message.

Which subscriptions get the messages of a subject is left open.
-/

namespace Foundation

universe u v w

/-- What a client asks of the server. -/
inductive BusOperation (Subject : Type v) (Payload : Type w) where
  | publish (subject : Subject) (payload : Payload)
  | subscribe (subject : Subject)

/-- A message as a subscription gets it. -/
structure Delivery (Client : Type u) (Subject : Type v) (Payload : Type w) where
  sender : Client
  subject : Subject
  payload : Payload

/-- The state of the connections: what the server has yet to carry out, the subscriptions that it
knows, and what each of them has got but not taken. -/
structure Bus (Client : Type u) (Subject : Type v) (Payload : Type w) where
  outgoing : Client → List (BusOperation Subject Payload)
  subscriptions : Client → List Subject
  inbox : Client → Subject → List (Delivery Client Subject Payload)

namespace BusOperation

variable {Subject : Type v} {Payload : Type w}

/-- The payload of a message that is published. -/
def published : BusOperation Subject Payload → Option Payload
  | publish _ payload => some payload
  | subscribe _ => none

/-- The subject of a subscription. -/
def subscribed : BusOperation Subject Payload → Option Subject
  | publish _ _ => none
  | subscribe subject => some subject

end BusOperation

namespace Bus

variable {Client : Type u} {Subject : Type v} {Payload : Type w} [DecidableEq Client]
  (covers : Subject → Subject → Bool) (bus : Bus Client Subject Payload)

/-- A bus on which nothing has happened. -/
def empty : Bus Client Subject Payload where
  outgoing _ := []
  subscriptions _ := []
  inbox _ _ := []

/-- A client hands an operation to its connection. -/
def send (client : Client) (operation : BusOperation Subject Payload) :
    Bus Client Subject Payload :=
  { bus with
    outgoing := Function.update bus.outgoing client (bus.outgoing client ++ [operation]) }

section

variable {bus} {client other : Client}

@[simp]
theorem send_subscriptions (operation : BusOperation Subject Payload) :
    (bus.send client operation).subscriptions = bus.subscriptions :=
  rfl

@[simp]
theorem send_inbox (operation : BusOperation Subject Payload) :
    (bus.send client operation).inbox = bus.inbox :=
  rfl

@[simp]
theorem send_outgoing_self (operation : BusOperation Subject Payload) :
    (bus.send client operation).outgoing client = bus.outgoing client ++ [operation] :=
  Function.update_self _ _ _

@[simp]
theorem send_outgoing_of_ne (ne : other ≠ client) (operation : BusOperation Subject Payload) :
    (bus.send client operation).outgoing other = bus.outgoing other :=
  Function.update_of_ne ne _ _

theorem mem_outgoing_send {operation sent : BusOperation Subject Payload}
    (sentMem : sent ∈ (bus.send client operation).outgoing other) :
    sent ∈ bus.outgoing other ∨ other = client ∧ sent = operation := by
  by_cases same : other = client
  · subst same
    rw [send_outgoing_self, List.mem_append, List.mem_singleton] at sentMem
    exact sentMem.imp_right fun isNew => ⟨rfl, isNew⟩
  · rw [send_outgoing_of_ne same] at sentMem
    exact Or.inl sentMem

end

variable [DecidableEq Subject]

/-- How often a client is subscribed. -/
def times (client : Client) (subscription : Subject) : Nat :=
  (bus.subscriptions client).count subscription

/-- What a client gets for one of its subscriptions when the server carries out an operation of
another client. -/
def handed (client : Client) (operation : BusOperation Subject Payload) (other : Client)
    (subscription : Subject) : List (Delivery Client Subject Payload) :=
  match operation with
  | .subscribe _ => []
  | .publish subject payload =>
      if covers subscription subject then
        List.replicate (bus.times other subscription) ⟨client, subject, payload⟩
      else []

/-- The bus after the server has carried out an operation of a client, who has sent the rest. -/
def afterServe (client : Client) (operation : BusOperation Subject Payload)
    (rest : List (BusOperation Subject Payload)) : Bus Client Subject Payload where
  outgoing := Function.update bus.outgoing client rest
  subscriptions := Function.update bus.subscriptions client
    (bus.subscriptions client ++ operation.subscribed.toList)
  inbox := fun other subscription =>
    bus.inbox other subscription ++ bus.handed covers client operation other subscription

/-- The server carries out the next operation of a client. -/
def serve (client : Client) : Option (Bus Client Subject Payload) :=
  match bus.outgoing client with
  | [] => none
  | operation :: rest => some (bus.afterServe covers client operation rest)

/-- The bus after a client has taken a message of a subscription, of which it has got the rest. -/
def afterReceive (client : Client) (subscription : Subject)
    (rest : List (Delivery Client Subject Payload)) : Bus Client Subject Payload :=
  { bus with
    inbox := Function.update bus.inbox client
      (Function.update (bus.inbox client) subscription rest) }

/-- A client takes the next message of a subscription. -/
def receive (client : Client) (subscription : Subject) :
    Option (Delivery Client Subject Payload × Bus Client Subject Payload) :=
  match bus.inbox client subscription with
  | [] => none
  | delivery :: rest => some (delivery, bus.afterReceive client subscription rest)

variable {covers bus} {after : Bus Client Subject Payload} {client other : Client}

theorem serve_eq_some (served : bus.serve covers client = some after) :
    ∃ operation rest, bus.outgoing client = operation :: rest ∧
      after = bus.afterServe covers client operation rest := by
  unfold serve at served
  split at served
  · cases served
  · next operation rest next =>
      cases served
      exact ⟨operation, rest, next, rfl⟩

theorem receive_eq_some {subscription : Subject} {delivery : Delivery Client Subject Payload}
    (received : bus.receive client subscription = some (delivery, after)) :
    ∃ rest, bus.inbox client subscription = delivery :: rest ∧
      after = bus.afterReceive client subscription rest := by
  unfold receive at received
  split at received
  · cases received
  · next rest next =>
      cases received
      exact ⟨rest, next, rfl⟩

omit [DecidableEq Client] in
theorem times_pos_iff {subscription : Subject} :
    0 < bus.times client subscription ↔ subscription ∈ bus.subscriptions client :=
  List.count_pos_iff

omit [DecidableEq Client] in
theorem times_le_one {subscription : Subject} (nodup : (bus.subscriptions client).Nodup) :
    bus.times client subscription ≤ 1 :=
  List.nodup_iff_count_le_one.mp nodup subscription

/-! ## What becomes of the parts -/

@[simp]
theorem afterServe_outgoing_self (operation : BusOperation Subject Payload)
    (rest : List (BusOperation Subject Payload)) :
    (bus.afterServe covers client operation rest).outgoing client = rest :=
  Function.update_self _ _ _

@[simp]
theorem afterServe_outgoing_of_ne (ne : other ≠ client) (operation : BusOperation Subject Payload)
    (rest : List (BusOperation Subject Payload)) :
    (bus.afterServe covers client operation rest).outgoing other = bus.outgoing other :=
  Function.update_of_ne ne _ _

theorem mem_outgoing_afterServe {operation sent : BusOperation Subject Payload}
    {rest : List (BusOperation Subject Payload)} (next : bus.outgoing client = operation :: rest)
    (sentMem : sent ∈ (bus.afterServe covers client operation rest).outgoing other) :
    sent ∈ bus.outgoing other := by
  by_cases same : other = client
  · subst same
    rw [afterServe_outgoing_self] at sentMem
    rw [next]
    exact List.mem_cons_of_mem _ sentMem
  · rwa [afterServe_outgoing_of_ne same] at sentMem

@[simp]
theorem afterServe_subscriptions_self (operation : BusOperation Subject Payload)
    (rest : List (BusOperation Subject Payload)) :
    (bus.afterServe covers client operation rest).subscriptions client =
      bus.subscriptions client ++ operation.subscribed.toList :=
  Function.update_self _ _ _

@[simp]
theorem afterServe_subscriptions_of_ne (ne : other ≠ client)
    (operation : BusOperation Subject Payload) (rest : List (BusOperation Subject Payload)) :
    (bus.afterServe covers client operation rest).subscriptions other = bus.subscriptions other :=
  Function.update_of_ne ne _ _

@[simp]
theorem afterReceive_outgoing (subscription : Subject)
    (rest : List (Delivery Client Subject Payload)) :
    (bus.afterReceive client subscription rest).outgoing = bus.outgoing :=
  rfl

@[simp]
theorem afterReceive_subscriptions (subscription : Subject)
    (rest : List (Delivery Client Subject Payload)) :
    (bus.afterReceive client subscription rest).subscriptions = bus.subscriptions :=
  rfl

@[simp]
theorem afterReceive_inbox_self (subscription : Subject)
    (rest : List (Delivery Client Subject Payload)) :
    (bus.afterReceive client subscription rest).inbox client subscription = rest := by
  simp [afterReceive]

@[simp]
theorem afterReceive_inbox_of_ne (ne : other ≠ client) (subscription : Subject)
    (rest : List (Delivery Client Subject Payload)) :
    (bus.afterReceive client subscription rest).inbox other = bus.inbox other :=
  Function.update_of_ne ne _ _

end Bus

end Foundation

import Promfetcher.Foundation.HttpClient
import Promfetcher.Models.Route

/-!
# The redirects of a scrape

The client of `clients/backend.go`. Its policy compares the host of the next request with
that of the first, and nothing else: the requests of a scrape stay on the
instance, but the policy takes the place of the one that counts hops, and an
instance that redirects to itself is followed as long as it does.
-/

namespace Promfetcher

open Foundation

/-- A client, without its transport and its timeout. -/
structure Client where
  /-- The server name that the transport expects in a certificate. -/
  serverName : GoString
  checkRedirect : Option RedirectPolicy

namespace Client

/-- The function that `NewClient` assigns to `CheckRedirect`. -/
def checkRedirectFunc : RedirectPolicy := fun req via =>
  match via with
  | [] =>
      .error (text "empty previous request for redirect " ++ req.url ++
        text ", should not happen")
  | first :: _ =>
      if req.host = first.host then .ok ()
      else
        .error (text "external redirect detected or too many redirect: " ++
          text "give metric_path parameter with direct endpoint to app metrics")

/-- `BackendFactory.NewClient`. -/
def newClient (route : Route) (followRedirect : Bool) : Client where
  serverName := route.serverCertDomainSan
  checkRedirect := if followRedirect then none else some checkRedirectFunc

/-- `client.Do`, after a number of answers. -/
def exchange (client : Client) (request : HttpRequest) (answers : Nat → HttpAnswer)
    (steps : Nat) : Exchange :=
  .run (client.checkRedirect.getD defaultCheckRedirect) request answers steps

/-- The answer is a redirect of the request to its own host. -/
def Stays (request : HttpRequest) (answer : HttpAnswer) : Prop :=
  ∃ location, answer = .redirect location ∧ (request.follow location).host = request.host

/-- The exchange stays on the host and follows one redirect at most; another one is an error. -/
structure OneHop (client : Client) (request : HttpRequest) (answers : Nat → HttpAnswer) :
    Prop where
  confined : ∀ steps, ∀ made ∈ (client.exchange request answers steps).reqs,
    made.host = request.host
  bounded : ∀ steps, (client.exchange request answers steps).reqs.length ≤ 2
  refused : ∀ steps location, (client.exchange request answers steps).outcome = none →
    (client.exchange request answers steps).reqs.length = 2 →
      answers steps = .redirect location →
        ∃ error, (client.exchange request answers (steps + 1)).outcome = some (.error error)

/-! ## Every request goes to the first host -/

/-- What holds of an exchange under the policy of `NewClient`. -/
structure Confined (request : HttpRequest) (exchange : Exchange) : Prop where
  first : exchange.reqs.head? = some request
  hosts : ∀ made ∈ exchange.reqs, made.host = request.host
  last : exchange.req.host = request.host

theorem checkRedirectFunc_ok {req first : HttpRequest} {via : List HttpRequest}
    (isFirst : via.head? = some first) :
    checkRedirectFunc req via = .ok () ↔ req.host = first.host := by
  cases via with
  | nil => cases isFirst
  | cons other via =>
      rw [List.head?_cons, Option.some.injEq] at isFirst
      subst isFirst
      by_cases same : req.host = other.host <;> simp [checkRedirectFunc, same]

theorem follow_host {request other : HttpRequest} (same : request.host = other.host)
    (location : Location) : (request.follow location).host = (other.follow location).host := by
  simp only [HttpRequest.follow, same]

theorem confined_start (request : HttpRequest) : Confined request (.start request) where
  first := rfl
  hosts := by simp [Exchange.start]
  last := rfl

theorem Confined.step {request : HttpRequest} {exchange : Exchange}
    (confined : Confined request exchange) (answer : HttpAnswer) :
    Confined request (exchange.step checkRedirectFunc answer) := by
  rcases Exchange.step_cases checkRedirectFunc exchange answer with
    ⟨_, same⟩ | ⟨_, _, ends⟩ | ⟨_, location, _, allowed, next⟩
  · rwa [same]
  · rw [ends]
    exact ⟨confined.first, confined.hosts, confined.last⟩
  · have host := (checkRedirectFunc_ok confined.first).mp allowed
    rw [next]
    refine ⟨?_, ?_, host⟩
    · simp [confined.first]
    · intro made madeMem
      rcases List.mem_append.mp madeMem with old | new
      · exact confined.hosts made old
      · rw [List.mem_singleton.mp new]
        exact host

theorem confined_run (request : HttpRequest) (answers : Nat → HttpAnswer) (steps : Nat) :
    Confined request (.run checkRedirectFunc request answers steps) :=
  Exchange.run_invariant _ (confined_start request)
    (fun _ answer confined => confined.step answer) steps

/-! ## How many redirects are followed -/

/-- A redirect to the same host is followed, whatever was followed before. -/
theorem step_of_stays {request : HttpRequest} {exchange : Exchange}
    (confined : Confined request exchange) (awaits : exchange.outcome = none)
    {answer : HttpAnswer} (stays : Stays request answer) :
    (exchange.step checkRedirectFunc answer).outcome = none ∧
      (exchange.step checkRedirectFunc answer).reqs.length = exchange.reqs.length + 1 := by
  rcases stays with ⟨location, rfl, host⟩
  have allowed : checkRedirectFunc (exchange.req.follow location) exchange.reqs = .ok () := by
    rw [checkRedirectFunc_ok confined.first, follow_host confined.last, host]
  simp [Exchange.step, awaits, allowed]

/-- Any other answer ends the exchange, a redirect with an error. -/
theorem step_of_not_stays {request : HttpRequest} {exchange : Exchange}
    (confined : Confined request exchange) (awaits : exchange.outcome = none)
    {answer : HttpAnswer} (leaves : ¬Stays request answer) :
    ∃ outcome, exchange.step checkRedirectFunc answer = { exchange with outcome := some outcome } ∧
      ∀ location, answer = .redirect location → ∃ error, outcome = .error error := by
  unfold Exchange.step
  rw [if_neg (not_not.mpr awaits)]
  cases answer with
  | final => exact ⟨_, rfl, fun _ impossible => by cases impossible⟩
  | failure error => exact ⟨_, rfl, fun _ impossible => by cases impossible⟩
  | redirect location =>
      have other : (exchange.req.follow location).host ≠ request.host := by
        rw [follow_host confined.last]
        exact fun host => leaves ⟨location, rfl, host⟩
      cases asked : checkRedirectFunc (exchange.req.follow location) exchange.reqs with
      | ok => exact absurd ((checkRedirectFunc_ok confined.first).mp asked) other
      | error error => exact ⟨.error error, by simp only [asked], fun _ _ => ⟨error, rfl⟩⟩

/-- An instance that always redirects to itself is followed for ever. -/
theorem length_reqs_of_stays {request : HttpRequest} {answers : Nat → HttpAnswer}
    (stays : ∀ step, Stays request (answers step)) (steps : Nat) :
    (Exchange.run checkRedirectFunc request answers steps).outcome = none ∧
      (Exchange.run checkRedirectFunc request answers steps).reqs.length = steps + 1 := by
  induction steps with
  | zero => exact ⟨rfl, rfl⟩
  | succ steps inductionHypothesis =>
      have next := step_of_stays (confined_run request answers steps) inductionHypothesis.1
        (stays steps)
      rw [inductionHypothesis.2] at next
      exact next

theorem exchange_newClient (route : Route) (request : HttpRequest) (answers : Nat → HttpAnswer)
    (steps : Nat) : (newClient route false).exchange request answers steps =
      .run checkRedirectFunc request answers steps :=
  rfl

section

variable {route : Route} {request : HttpRequest} {answers : Nat → HttpAnswer}

theorem oneHop_of_first (leaves : ¬Stays request (answers 0)) :
    OneHop (newClient route false) request answers := by
  rcases step_of_not_stays (confined_start request) rfl leaves with ⟨outcome, ends, _⟩
  have later (steps : Nat) :
      Exchange.run checkRedirectFunc request answers (steps + 1) =
        { Exchange.start request with outcome := some outcome } := by
    rw [← ends]
    refine Exchange.run_of_outcome (Nat.le_add_left 1 steps) ?_
    rw [Exchange.run, Exchange.run, ends]
    exact Option.some_ne_none _
  have single (steps : Nat) :
      (Exchange.run checkRedirectFunc request answers steps).reqs.length = 1 := by
    cases steps with
    | zero => rfl
    | succ steps => rw [later]; rfl
  refine ⟨fun steps => (confined_run request answers steps).hosts, ?_, ?_⟩
  · intro steps
    rw [exchange_newClient, single]
    exact Nat.le_succ 1
  · intro steps location _ two
    rw [exchange_newClient, single] at two
    cases two

theorem oneHop_of_second (stays : Stays request (answers 0))
    (leaves : ¬Stays request (answers 1)) :
    OneHop (newClient route false) request answers := by
  have first := step_of_stays (confined_start request) rfl stays
  rcases step_of_not_stays (confined_run request answers 1) first.1 leaves with
    ⟨outcome, ends, isError⟩
  have later (steps : Nat) :
      Exchange.run checkRedirectFunc request answers (steps + 2) =
        { Exchange.run checkRedirectFunc request answers 1 with outcome := some outcome } := by
    rw [← ends]
    refine Exchange.run_of_outcome (Nat.le_add_left 2 steps) ?_
    rw [Exchange.run, ends]
    exact Option.some_ne_none _
  refine ⟨fun steps => (confined_run request answers steps).hosts, ?_, ?_⟩
  · intro steps
    rw [exchange_newClient]
    rcases steps with _ | _ | steps
    · exact Nat.le_succ 1
    · exact first.2.le
    · rw [later]
      exact first.2.le
  · intro steps location awaits two redirects
    rw [exchange_newClient] at awaits two ⊢
    rcases steps with _ | _ | steps
    · cases two
    · rcases isError location redirects with ⟨error, rfl⟩
      exact ⟨error, by rw [later 0]⟩
    · rw [later] at awaits
      cases awaits

theorem not_oneHop_of_stays (first : Stays request (answers 0))
    (second : Stays request (answers 1)) :
    ¬OneHop (newClient route false) request answers := by
  intro oneHop
  have afterFirst := step_of_stays (confined_start request) rfl first
  have afterSecond := step_of_stays (confined_run request answers 1) afterFirst.1 second
  have few := oneHop.bounded 2
  rw [exchange_newClient, Exchange.run, afterSecond.2, Exchange.run, Exchange.run,
    afterFirst.2] at few
  exact absurd few (by simp [Exchange.start])

end

/-- Every request of a scrape goes to the host of the first one; and one redirect is followed at
most, unless the first two answers both redirect to that host. -/
theorem oneHop_iff (route : Route) (request : HttpRequest) (answers : Nat → HttpAnswer) :
    (∀ steps, ∀ made ∈ ((newClient route false).exchange request answers steps).reqs,
        made.host = request.host) ∧
      (OneHop (newClient route false) request answers ↔
        ¬(Stays request (answers 0) ∧ Stays request (answers 1))) := by
  refine ⟨fun steps => (confined_run request answers steps).hosts, ?_, ?_⟩
  · rintro oneHop ⟨first, second⟩
    exact not_oneHop_of_stays first second oneHop
  · intro leaves
    by_cases stays : Stays request (answers 0)
    · exact oneHop_of_second stays fun second => leaves ⟨stays, second⟩
    · exact oneHop_of_first stays

/-- An instance that answers every request with a redirect to a path of its own. -/
theorem not_oneHop_always : ¬∀ route request answers,
    OneHop (newClient route false) request answers := by
  intro oneHop
  have few := (oneHop {} ⟨text "10.0.0.1:8080", text "http://10.0.0.1:8080/metrics"⟩
    fun _ => .redirect ⟨none, text "/metrics"⟩).bounded 2
  exact absurd few (by decide)

end Client

end Promfetcher

import Promfetcher.Foundation.Text

/-!
# The redirects of an HTTP client

The loop of `http.Client.Do` in the standard library, for a request without a body. Before a
redirect is followed, the policy of the client is asked with the request to make
and the requests made already; an error of it ends the exchange. What the server
answers is a stream, so that an exchange need not end.
-/

namespace Foundation

/-- A request, as far as a policy sees it: the host of its URL, and the URL as a text. -/
structure HttpRequest where
  host : GoString
  url : GoString
  deriving DecidableEq

/-- The URL of a `Location` header. A relative one has no host. -/
structure Location where
  host : Option GoString
  url : GoString
  deriving DecidableEq

/-- The next hop: a relative location keeps the host. -/
def HttpRequest.follow (request : HttpRequest) (location : Location) : HttpRequest where
  host := location.host.getD request.host
  url := location.url

/-- What comes of sending a request. -/
inductive HttpAnswer where
  /-- A status that is no redirect, or a redirect without a `Location`. -/
  | final
  /-- The request failed, or its `Location` cannot be parsed. -/
  | failure (error : GoString)
  | redirect (location : Location)

/-- `CheckRedirect`: asked with the request to make and those made, oldest first. -/
abbrev RedirectPolicy := HttpRequest → List HttpRequest → Except GoString Unit

/-- The policy of a client whose `CheckRedirect` is nil. -/
def defaultCheckRedirect : RedirectPolicy := fun _ via =>
  if via.length ≥ 10 then .error (text "stopped after 10 redirects") else .ok ()

/-- What `Do` returns. -/
inductive Outcome where
  | response
  | error (error : GoString)
  deriving DecidableEq

/-- The variables of the loop of `Do`, with its result once it has returned. -/
structure Exchange where
  reqs : List HttpRequest
  req : HttpRequest
  outcome : Option Outcome := none
  deriving DecidableEq

namespace Exchange

/-- The exchange before the first answer. -/
def start (request : HttpRequest) : Exchange where
  reqs := [request]
  req := request

/-- One turn of the loop, with the answer to the last request. -/
def step (policy : RedirectPolicy) (exchange : Exchange) (answer : HttpAnswer) : Exchange :=
  if exchange.outcome ≠ none then exchange
  else
    match answer with
    | .final => { exchange with outcome := some .response }
    | .failure error => { exchange with outcome := some (.error error) }
    | .redirect location =>
        let req := exchange.req.follow location
        match policy req exchange.reqs with
        | .error error => { exchange with outcome := some (.error error) }
        | .ok () => { exchange with reqs := exchange.reqs ++ [req], req := req }

/-- The exchange after a number of answers. -/
def run (policy : RedirectPolicy) (request : HttpRequest) (answers : Nat → HttpAnswer) :
    Nat → Exchange
  | 0 => start request
  | steps + 1 => (run policy request answers steps).step policy (answers steps)

variable {policy : RedirectPolicy} {request : HttpRequest} {answers : Nat → HttpAnswer}

/-- What one turn can do: nothing after the end, end the exchange, or make one more request. -/
theorem step_cases (policy : RedirectPolicy) (exchange : Exchange) (answer : HttpAnswer) :
    (exchange.outcome ≠ none ∧ exchange.step policy answer = exchange) ∨
      (exchange.outcome = none ∧ ∃ outcome,
        exchange.step policy answer = { exchange with outcome := some outcome }) ∨
      (exchange.outcome = none ∧ ∃ location, answer = .redirect location ∧
        policy (exchange.req.follow location) exchange.reqs = .ok () ∧
        exchange.step policy answer =
          { exchange with
            reqs := exchange.reqs ++ [exchange.req.follow location]
            req := exchange.req.follow location }) := by
  unfold step
  by_cases ended : exchange.outcome ≠ none
  · exact Or.inl ⟨ended, if_pos ended⟩
  · rw [if_neg ended]
    rw [not_not] at ended
    cases answer with
    | final => exact Or.inr (Or.inl ⟨ended, _, rfl⟩)
    | failure error => exact Or.inr (Or.inl ⟨ended, _, rfl⟩)
    | redirect location =>
        cases asked : policy (exchange.req.follow location) exchange.reqs with
        | error error => exact Or.inr (Or.inl ⟨ended, .error error, by simp only [asked]⟩)
        | ok =>
            exact Or.inr (Or.inr ⟨ended, location, rfl, asked, by simp only [asked]⟩)

/-- A predicate that holds at the start and is kept by every turn holds throughout. -/
theorem run_invariant (Invariant : Exchange → Prop) (initially : Invariant (start request))
    (kept : ∀ exchange answer, Invariant exchange → Invariant (exchange.step policy answer))
    (steps : Nat) : Invariant (run policy request answers steps) := by
  induction steps with
  | zero => exact initially
  | succ steps inductionHypothesis => exact kept _ _ inductionHypothesis

theorem step_of_outcome {exchange : Exchange} (ended : exchange.outcome ≠ none)
    (answer : HttpAnswer) : exchange.step policy answer = exchange :=
  if_pos ended

/-- Once the exchange has ended, nothing changes. -/
theorem run_of_outcome {steps later : Nat} (before : steps ≤ later)
    (ended : (run policy request answers steps).outcome ≠ none) :
    run policy request answers later = run policy request answers steps := by
  induction later, before using Nat.le_induction with
  | base => rfl
  | succ later _ inductionHypothesis =>
      rw [run, inductionHypothesis]
      exact step_of_outcome ended _

/-- The default policy makes ten requests at most. -/
theorem length_reqs_default (steps : Nat) :
    (run defaultCheckRedirect request answers steps).reqs.length ≤ 10 := by
  apply run_invariant fun exchange => exchange.reqs.length ≤ 10
  · simp [start]
  intro exchange answer few
  rcases step_cases defaultCheckRedirect exchange answer with
    ⟨_, same⟩ | ⟨_, _, ends⟩ | ⟨_, location, _, allowed, next⟩
  · rw [same]
    exact few
  · rw [ends]
    exact few
  · rw [next, List.length_append, List.length_singleton]
    unfold defaultCheckRedirect at allowed
    split at allowed
    · cases allowed
    · omega

end Exchange

end Foundation

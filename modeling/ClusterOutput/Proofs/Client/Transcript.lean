/-
The transcript of a request's exchanges: what has to be measured of them, one
sample for the start of each, one for the retry that it is, one for its duration
and one for its failure. Metric by metric, the transcript balances with the
exchanges.
-/
import ClusterOutput.Observation.Sample
import ClusterOutput.Proofs.Client.Settle

namespace ClusterOutput

/-! ## Metrics -/

/-- The metrics that measurements belong to. -/
inductive Metric where
  | requests
  | durations
  | retries
  | errors
  | transitions
  deriving DecidableEq

def Sample.metric : Sample → Metric
  | .attempt .. => .requests
  | .duration .. => .durations
  | .retry .. => .retries
  | .error .. => .errors
  | .transition _ => .transitions

/-- The measurements of one metric, in order. -/
def Metric.of (m : Metric) (samples : List Sample) : List Sample :=
  samples.filter (·.metric = m)

@[simp] theorem Metric.of_nil (m : Metric) : m.of [] = [] := rfl

@[simp] theorem Metric.of_append (m : Metric) (samples later : List Sample) :
    m.of (samples ++ later) = m.of samples ++ m.of later := List.filter_append ..

theorem Metric.of_cons (m : Metric) (x : Sample) (samples : List Sample) :
    m.of (x :: samples) = if x.metric = m then x :: m.of samples else m.of samples := by
  simp [Metric.of, List.filter_cons]

/-- Measurements of one metric are all that is of it, or nothing is of another. -/
theorem Metric.of_map {α : Type} {m : Metric} {f : α → Sample} (hf : ∀ x, (f x).metric = m)
    (m' : Metric) (xs : List α) : m'.of (xs.map f) = if m = m' then xs.map f else [] := by
  induction xs with
  | nil => simp
  | cons x xs ih =>
    rw [List.map_cons, of_cons, hf, ih]
    split <;> rfl

theorem Metric.of_errors (m : Metric) (op : Operation) (method : String)
    (categories : List ErrorCategory) :
    m.of (categories.map (.error op method)) =
      if .errors = m then categories.map (.error op method) else [] :=
  of_map (f := .error op method) (fun _ => rfl) m categories

/-- The measurement is of a request, and not of a connection. -/
def Sample.isOfRequest (x : Sample) : Bool := x.metric ≠ .transitions

theorem Metric.of_filter {m : Metric} (hm : m ≠ .transitions) (samples : List Sample) :
    m.of (samples.filter Sample.isOfRequest) = m.of samples := by
  rw [Metric.of, Metric.of, List.filter_filter]
  refine List.filter_congr fun x _ => ?_
  by_cases hx : x.metric = m
  · simp [Sample.isOfRequest, hx, hm]
  · simp [hx]

/-- The measurements since an earlier moment of the session. -/
def Session.samplesSince (s earlier : Session) : List Sample :=
  s.journal.samples.drop earlier.journal.samples.length

/-! ## The transcript of exchanges -/

/-- The category of failure that is counted for an exchange. If it is `watched`, there is none when
the run is interrupted before its end. -/
def Http.Reply.failure? (watched : Bool) : Http.Reply → Option ErrorCategory
  | .failed _ => some .transport
  | .interrupted => if watched then none else some .transport
  | .answered status _ body =>
    if 499 < status then some .unhealthyAnswer else if body.isNone then some .transport else none
  | .cut status _ =>
    if watched then none else if 499 < status then some .unhealthyAnswer else some .transport

/-- The status under which the duration of an exchange is measured, or that it failed without one;
nothing is if the run is interrupted before its status. -/
def Http.Reply.measured (watched : Bool) : Http.Reply → List (Option Nat)
  | .failed _ => [none]
  | .interrupted => if watched then [] else [none]
  | .answered status _ _ | .cut status _ => [some status]

/-- The categories of errors that are counted for the end of a request: of its error, unless that
only says that all attempts failed. -/
def finalCategory {α : Type} : Except RequestError α → List ErrorCategory
  | .ok _ => []
  | .error e => if e.isExhaustion then [] else [.of e]

/-- A request ends between two exchanges. -/
inductive EndsBetween {α : Type} : Except RequestError α → Prop
  | cancelled : EndsBetween (.error .cancelled)
  | noConnections : EndsBetween (.error .noConnections)
  | invalidUrl {message : String} : EndsBetween (.error (.invalidUrl message))

/-- The measurements of an operation balance with the exchanges that it made and with its result. -/
structure Balanced {α : Type} (watched : Bool) (op : Operation) (method : String)
    (sent : List Exchange) (samples : List Sample) (r : Except RequestError α) : Prop where
  requests : Metric.requests.of samples = List.replicate sent.length (.attempt op method)
  /-- One retry for each attempt after the first, and one more where the call ended before the
  exchange of that attempt. -/
  retries : ∃ last, Metric.retries.of samples = (List.range' 2 (last - 1)).map (.retry op method) ∧
    (last = sent.length ∨ last = sent.length + 1 ∧ 1 ≤ sent.length ∧ EndsBetween r)
  errors : Metric.errors.of samples =
    (sent.filterMap (·.reply.failure? watched) ++ finalCategory r).map (.error op method)
  durations : Metric.durations.of samples =
    (sent.flatMap (·.reply.measured watched)).map (.duration op method)

/-- What is measured of connections does not matter. -/
theorem Balanced.of_filter {α : Type} {watched : Bool} {op : Operation} {method : String}
    {sent : List Exchange} {samples : List Sample} {r : Except RequestError α}
    (h : Balanced watched op method sent (samples.filter Sample.isOfRequest) r) :
    Balanced watched op method sent samples r := by
  obtain ⟨hrequests, hretries, herrors, hdurations⟩ := h
  rw [Metric.of_filter (by decide)] at hrequests hretries herrors hdurations
  exact ⟨hrequests, hretries, herrors, hdurations⟩

/-- What ends a request before there is an answer, ends in the same way what is built on it. -/
theorem Balanced.of_error {α β : Type} {watched : Bool} {op : Operation} {method : String}
    {sent : List Exchange} {samples : List Sample} {e : RequestError}
    (h : Balanced watched op method sent samples (.error e : Except RequestError α)) :
    Balanced watched op method sent samples (.error e : Except RequestError β) := by
  obtain ⟨hrequests, ⟨last, hretries, hlast⟩, herrors, hdurations⟩ := h
  refine ⟨hrequests, ⟨last, hretries, hlast.imp_right ?_⟩, herrors, hdurations⟩
  rintro ⟨hlast, hsome, hends⟩
  refine ⟨hlast, hsome, ?_⟩
  cases hends with
  | cancelled => exact .cancelled
  | noConnections => exact .noConnections
  | invalidUrl => exact .invalidUrl

/-- What comes of an answer is the only thing left to measure. -/
theorem Balanced.of_ok {α β : Type} {watched : Bool} {op : Operation} {method : String}
    {sent : List Exchange} {samples : List Sample} {a : α}
    (h : Balanced watched op method sent samples (.ok a : Except RequestError α))
    (r : Except RequestError β) :
    Balanced watched op method sent (samples ++ (finalCategory r).map (.error op method)) r := by
  obtain ⟨hrequests, ⟨last, hretries, hlast⟩, herrors, hdurations⟩ := h
  refine ⟨?_, ⟨last, ?_, ?_⟩, ?_, ?_⟩
  · rw [Metric.of_append, hrequests, Metric.of_errors]
    exact List.append_nil _
  · rw [Metric.of_append, hretries, Metric.of_errors]
    exact List.append_nil _
  · obtain hlast | ⟨-, -, hends⟩ := hlast
    · exact .inl hlast
    · cases hends
  · have hnone : finalCategory (.ok a : Except RequestError α) = [] := rfl
    rw [Metric.of_append, herrors, hnone, Metric.of_errors, if_pos rfl, List.append_nil, List.map_append]
  · rw [Metric.of_append, hdurations, Metric.of_errors]
    exact List.append_nil _

section Transcript

variable (watched : Bool) (op : Operation) (method : String)

/-- What is measured when an attempt of this number is to start. -/
def retrySamples (number : Nat) : List Sample :=
  if Client.isRetry number then [.retry op method number] else []

/-- What is measured of an exchange. -/
def Exchange.samples (x : Exchange) : List Sample :=
  .attempt op method :: ((x.reply.measured watched).map (.duration op method) ++
    (x.reply.failure? watched).toList.map (.error op method))

/-- What is measured of the exchanges of a request from its `number`-th on. -/
def transcript : (number : Nat) → List Exchange → List Sample
  | _, [] => []
  | number, x :: sent =>
    retrySamples op method number ++ x.samples watched op method ++ transcript (number + 1) sent

theorem transcript_concat (number : Nat) (sent : List Exchange) (x : Exchange) :
    transcript watched op method number (sent ++ [x]) =
      transcript watched op method number sent ++
        (retrySamples op method (number + sent.length) ++ x.samples watched op method) := by
  induction sent generalizing number with
  | nil => simp [transcript]
  | cons y sent ih =>
    have hnumber : number + 1 + sent.length = number + (y :: sent).length := by
      rw [List.length_cons]
      omega
    rw [List.cons_append, transcript, ih, hnumber, transcript]
    simp only [List.append_assoc]

/-- What is measured of an exchange, metric by metric. -/
theorem Exchange.of_samples (x : Exchange) (m : Metric) :
    m.of (x.samples watched op method) =
      match m with
      | .requests => [.attempt op method]
      | .durations => (x.reply.measured watched).map (.duration op method)
      | .errors => (x.reply.failure? watched).toList.map (.error op method)
      | .retries | .transitions => [] := by
  rw [samples, Metric.of_cons, Metric.of_append, Metric.of_map (m := .durations) (fun _ => rfl),
    Metric.of_errors]
  cases m <;> simp [Sample.metric]

theorem of_retrySamples {m : Metric} (hm : m ≠ .retries) (number : Nat) :
    m.of (retrySamples op method number) = [] := by
  unfold retrySamples
  split
  · simp [Metric.of_cons, Sample.metric, hm.symm]
  · rfl

/-- Each exchange adds what is measured of it to a metric other than that of retries. -/
theorem of_transcript {m : Metric} (hm : m ≠ .retries) (number : Nat) (sent : List Exchange) :
    m.of (transcript watched op method number sent) =
      sent.flatMap fun x => m.of (x.samples watched op method) := by
  induction sent generalizing number with
  | nil => rfl
  | cons x sent ih =>
    rw [transcript, Metric.of_append, Metric.of_append, of_retrySamples op method hm, ih]
    rfl

theorem requests_transcript (number : Nat) (sent : List Exchange) :
    Metric.requests.of (transcript watched op method number sent) =
      List.replicate sent.length (.attempt op method) := by
  rw [of_transcript watched op method (by decide)]
  simp only [Exchange.of_samples]
  rw [← List.map_eq_flatMap, List.map_const']

theorem errors_transcript (number : Nat) (sent : List Exchange) :
    Metric.errors.of (transcript watched op method number sent) =
      (sent.filterMap (·.reply.failure? watched)).map (.error op method) := by
  rw [of_transcript watched op method (by decide), List.filterMap_eq_flatMap_toList,
    List.map_flatMap]
  simp only [Exchange.of_samples]

theorem durations_transcript (number : Nat) (sent : List Exchange) :
    Metric.durations.of (transcript watched op method number sent) =
      (sent.flatMap (·.reply.measured watched)).map (.duration op method) := by
  rw [of_transcript watched op method (by decide), List.map_flatMap]
  simp only [Exchange.of_samples]

/-- Each attempt from the second on is a retry. -/
theorem retries_transcript {number : Nat} (hnumber : 1 < number) (sent : List Exchange) :
    Metric.retries.of (transcript watched op method number sent) =
      (List.range' number sent.length).map (.retry op method) := by
  induction sent generalizing number with
  | nil => rfl
  | cons x sent ih =>
    have hretry : Client.isRetry number = true := decide_eq_true hnumber
    rw [transcript, Metric.of_append, Metric.of_append, Exchange.of_samples,
      ih (Nat.lt_succ_of_lt hnumber), retrySamples, if_pos hretry]
    rfl

theorem retries_transcript_one (sent : List Exchange) :
    Metric.retries.of (transcript watched op method 1 sent) =
      (List.range' 2 (sent.length - 1)).map (.retry op method) := by
  cases sent with
  | nil => rfl
  | cons x sent =>
    rw [transcript, Metric.of_append, Metric.of_append, Exchange.of_samples,
      retries_transcript watched op method (by decide)]
    rfl

end Transcript

/-- The category in which the end of an attempt is counted, if it is a failure. -/
def failureOf : Except RequestError Bytes → Option ErrorCategory
  | .ok _ | .error .cancelled => none
  | .error e => some (.of e)

theorem failureOf_error {e : RequestError} (h : e ≠ .cancelled) :
    failureOf (.error e) = some (.of e) := by
  cases e with
  | cancelled => exact absurd rfl h
  | _ => rfl

/-- An exchange fails in the category of the error that its attempt comes to. -/
theorem Exchange.failure?_eq (watched : Bool) (x : Exchange) :
    x.reply.failure? watched =
      failureOf (if watched && x.reply.isOpen then .error .cancelled else x.outcome) := by
  obtain ⟨conn, url, request, reply⟩ := x
  cases reply with
  | failed failure => cases watched <;> rfl
  | interrupted => cases watched <;> rfl
  | answered status final body =>
    rw [Http.Reply.isOpen, Bool.and_false, if_neg Bool.false_ne_true]
    by_cases hs : 499 < status
    · simp [Http.Reply.failure?, outcome, hs, failureOf, ErrorCategory.of]
    · cases body <;> simp [Http.Reply.failure?, outcome, hs, failureOf, ErrorCategory.of]
  | cut status final =>
    cases watched with
    | true => rfl
    | false =>
      by_cases hs : 499 < status <;>
        simp [Http.Reply.failure?, outcome, hs, failureOf, ErrorCategory.of]

end ClusterOutput

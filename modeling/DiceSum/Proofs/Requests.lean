import DiceSum.Proofs.DrawOrder
import DiceSum.Roller

/-!
# Rows of requests to one roller

A roller is asked for the rolls of texts and of expressions, one after another. A request with an
expression moves the source by as many samples as the expression has dice, and the count of draws by
the same number; a text that is no notation is answered with its rejection and moves nothing. So the
requests with an expression share one unbroken stream of samples, and the others may as well not be
made.

## Main definitions

* `DiceSum.Request`, `DiceSum.Request.serve`, `DiceSum.serveAll` — a request, its answer and the
  answers to a row of requests.
* `DiceSum.Request.reading`, `DiceSum.Request.diceCount` — the expression of a request and its
  number of dice.
* `DiceSum.keepAt` — a row without the entries at some positions.

## Main results

* `DiceSum.Request.serve_eq` — what one request does.
* `DiceSum.state_serveAll`, `DiceSum.getElem?_serveAll` — what a row of requests does.
* `DiceSum.serveAll_keepAt` — failed requests can be left out.
* `DiceSum.serveAll_one_stream` — all of this from the start of a roller.
-/

namespace DiceSum

variable {σ : Type} [Source σ]

/-! ### One request -/

theorem Roller.rollExpression_eq (e : Expression) (r : Roller σ) :
    rollExpression e r =
      ((e.roll r.source).1.value, ⟨Source.after r.source e.diceCount, r.draws + e.diceCount⟩) := by
  rw [← e.state_roll r.source, ← e.length_faces_roll r.source]
  rfl

/-- What can be asked of a roller: to read and roll a text, or to roll an expression. -/
inductive Request where
  | written (s : String)
  | built (e : Expression)
  deriving DecidableEq

namespace Request

/-- The expression that is asked for, or the rejection of the text. -/
def reading : Request → Except Rejection Expression
  | written s => Expression.parse s
  | built e => .ok e

/-- The number of dice that are thrown for a request. -/
def diceCount (q : Request) : Nat :=
  match q.reading with
  | .ok e => e.diceCount
  | .error _ => 0

/-- The answer of a roller. -/
def serve : Request → StateM (Roller σ) (Except Rejection Roll)
  | written s => Roller.roll s
  | built e => .ok <$> Roller.rollExpression e

/-- A request is answered by the roll of its expression against the source as it stands, or by the
rejection of its text. -/
theorem serve_eq (q : Request) (r : Roller σ) :
    q.serve r =
      (q.reading.map fun e => (e.roll r.source).1.value,
        ⟨Source.after r.source q.diceCount, r.draws + q.diceCount⟩) := by
  have hbuilt (e : Expression) : (built e).serve r =
      (.ok (e.roll r.source).1.value,
        ⟨Source.after r.source e.diceCount, r.draws + e.diceCount⟩) := by
    change (Except.ok (Roller.rollExpression e r).1, (Roller.rollExpression e r).2) = _
    rw [Roller.rollExpression_eq]
  cases q with
  | built e => exact hbuilt e
  | written s =>
    rw [serve, Roller.roll, diceCount, reading]
    cases Expression.parse s with
    | ok e => exact hbuilt e
    | error x => rfl

theorem serve_of_error {q : Request} {x : Rejection} (h : q.reading = .error x) (r : Roller σ) :
    q.serve r = (.error x, r) := by
  rw [serve_eq, diceCount, h]
  rfl

end Request

/-! ### Rows of requests -/

/-- Serves requests one after another. -/
def serveAll (requests : List Request) : StateM (Roller σ) (List (Except Rejection Roll)) :=
  requests.mapM Request.serve

variable {requests requests' : List Request}

theorem serveAll_cons (q : Request) (requests : List Request) (r : Roller σ) :
    serveAll (q :: requests) r =
      ((q.serve r).1 :: (serveAll requests (q.serve r).2).1,
        (serveAll requests (q.serve r).2).2) := by
  rw [serveAll, List.mapM_cons]
  rfl

/-- The number of dice that are thrown for a row of requests. -/
def totalDice (requests : List Request) : Nat := (requests.map Request.diceCount).sum

theorem totalDice_cons (q : Request) (requests : List Request) :
    totalDice (q :: requests) = q.diceCount + totalDice requests := by
  rw [totalDice, List.map_cons, List.sum_cons, totalDice]

/-- A row of requests moves the source and the count of draws by the dice of all its requests. -/
theorem state_serveAll (requests : List Request) (r : Roller σ) :
    (serveAll requests r).2 =
      ⟨Source.after r.source (totalDice requests), r.draws + totalDice requests⟩ := by
  induction requests generalizing r with
  | nil => rfl
  | cons q requests ih =>
    rw [serveAll_cons, ih, Request.serve_eq, totalDice_cons, Source.after_add, Nat.add_assoc]

/-- The answer to a request in a row is the one that it has behind the requests before it. -/
theorem getElem?_serveAll (requests : List Request) (r : Roller σ) (n : Nat) :
    (serveAll requests r).1[n]? =
      requests[n]?.map fun q => (q.serve (serveAll (requests.take n) r).2).1 := by
  induction requests generalizing r n with
  | nil => rfl
  | cons q requests ih =>
    rw [serveAll_cons]
    cases n with
    | zero => rfl
    | succ n =>
      rw [List.getElem?_cons_succ, List.getElem?_cons_succ, ih, List.take_succ_cons, serveAll_cons]

/-- The answers depend on the readings of the requests only. -/
theorem serveAll_congr (h : requests'.map Request.reading = requests.map Request.reading)
    (r : Roller σ) : serveAll requests' r = serveAll requests r := by
  induction requests generalizing requests' r with
  | nil => rw [List.map_eq_nil_iff.mp h]
  | cons q requests ih =>
    obtain ⟨q', rest, rfl, hq, hrest⟩ := List.map_eq_cons_iff.mp h
    have hserve : q'.serve r = q.serve r := by
      rw [Request.serve_eq, Request.serve_eq, Request.diceCount, Request.diceCount, hq]
    rw [serveAll_cons, serveAll_cons, hserve, ih hrest]

/-! ### Requests that are left out -/

/-- The entries of a row at the positions where `keep` holds. -/
def keepAt {α : Type} (keep : Nat → Bool) : List α → List α
  | [] => []
  | x :: xs =>
    if keep 0 then x :: keepAt (fun n => keep (n + 1)) xs else keepAt (fun n => keep (n + 1)) xs

/-- Failed requests can be left out: the other answers and the roller stay as they are. -/
theorem serveAll_keepAt {keep : Nat → Bool}
    (h : ∀ n q, requests[n]? = some q → keep n = false → ∃ x, q.reading = .error x)
    (r : Roller σ) :
    serveAll (keepAt keep requests) r =
      (keepAt keep (serveAll requests r).1, (serveAll requests r).2) := by
  induction requests generalizing keep r with
  | nil => rfl
  | cons q requests ih =>
    have hlater : ∀ n q', requests[n]? = some q' → keep (n + 1) = false →
        ∃ x, q'.reading = .error x := fun n q' hq' => h (n + 1) q' hq'
    rw [serveAll_cons, keepAt, keepAt]
    cases hkeep : keep 0 with
    | true => rw [if_pos rfl, if_pos rfl, serveAll_cons, ih hlater]
    | false =>
      -- a request that is left out has failed, and the roller behind it is the one before it
      obtain ⟨x, hx⟩ := h 0 q rfl hkeep
      rw [if_neg Bool.false_ne_true, if_neg Bool.false_ne_true, Request.serve_of_error hx,
        ih hlater]

/-! ### From the start -/

/-- The number of signed faces in an answer. -/
def facesIn : Except Rejection Roll → Nat
  | .ok r => r.faces.length
  | .error _ => 0

theorem facesIn_serve (q : Request) (r : Roller σ) : facesIn (q.serve r).1 = q.diceCount := by
  rw [Request.serve_eq, Request.diceCount]
  cases q.reading with
  | ok e => exact e.length_faces_roll r.source
  | error x => rfl

theorem sum_facesIn_serveAll (requests : List Request) (r : Roller σ) :
    ((serveAll requests r).1.map facesIn).sum = totalDice requests := by
  induction requests generalizing r with
  | nil => rfl
  | cons q requests ih =>
    rw [serveAll_cons, List.map_cons, List.sum_cons, ih, facesIn_serve, totalDice_cons]

theorem state_serveAll_start (requests : List Request) (source : σ) :
    (serveAll requests (Roller.start source)).2 =
      ⟨Source.after source (totalDice requests), totalDice requests⟩ := by
  rw [state_serveAll, Roller.start, Nat.zero_add]

/-- Counting the samples changes no answer, and gives the same number as the count of draws. -/
theorem serveAll_metered (requests : List Request) (source : σ) :
    serveAll requests (Roller.start (⟨source, 0⟩ : Metered σ)) =
      ((serveAll requests (Roller.start source)).1,
        ⟨⟨Source.after source (totalDice requests), totalDice requests⟩, totalDice requests⟩) := by
  refine Prod.ext (List.ext_getElem? fun n => ?_) ?_
  · simp only [getElem?_serveAll, state_serveAll_start, Request.serve_eq, Expression.roll_metered,
      Source.after_metered]
  · rw [state_serveAll_start, Source.after_metered, Nat.zero_add]

/-- **A roller draws one unbroken stream of samples, and failed requests are invisible.** After any
number of requests the count of draws is the number of dice of those that had an expression, of the
signed faces in the answers and of the samples taken, and the source stands behind that many
samples. A request with an expression is answered by its roll from there on, which is the roll in
words unless that stops; any other is answered with its rejection and leaves the roller as it is.
Leaving out failed requests, and asking for the expression that a text is read as in place of the
text, changes no other answer and not the roller in the end. -/
theorem serveAll_one_stream (source : σ) (requests : List Request) :
    (∀ n, (serveAll (requests.take n) (Roller.start source)).2 =
        ⟨Source.after source (totalDice (requests.take n)), totalDice (requests.take n)⟩ ∧
      ((serveAll (requests.take n) (Roller.start source)).1.map facesIn).sum =
        totalDice (requests.take n) ∧
      serveAll (requests.take n) (Roller.start (⟨source, 0⟩ : Metered σ)) =
        ((serveAll (requests.take n) (Roller.start source)).1,
          ⟨⟨Source.after source (totalDice (requests.take n)), totalDice (requests.take n)⟩,
            totalDice (requests.take n)⟩)) ∧
    (∀ (n : Nat) (q : Request) (e : Expression), requests[n]? = some q → q.reading = .ok e →
      ∃ roll, (serveAll requests (Roller.start source)).1[n]? = some (.ok roll) ∧
        roll = (e.roll (Source.after source (totalDice (requests.take n)))).1.value ∧
        ∀ r, e.wordRoll? (Source.after source (totalDice (requests.take n))) = some r →
          r = (roll.faces, roll.total)) ∧
    (∀ (n : Nat) (q : Request) (x : Rejection), requests[n]? = some q → q.reading = .error x →
      (serveAll requests (Roller.start source)).1[n]? = some (.error x) ∧
      x.message = "invalid dice notation" ∧
      (serveAll (requests.take (n + 1)) (Roller.start source)).2 =
        (serveAll (requests.take n) (Roller.start source)).2) ∧
    (∀ keep : Nat → Bool,
      (∀ n q, requests[n]? = some q → keep n = false → ∃ x, q.reading = .error x) →
      serveAll (keepAt keep requests) (Roller.start source) =
        (keepAt keep (serveAll requests (Roller.start source)).1,
          (serveAll requests (Roller.start source)).2)) ∧
    ∀ requests', requests'.map Request.reading = requests.map Request.reading →
      serveAll requests' (Roller.start source) = serveAll requests (Roller.start source) := by
  refine ⟨fun n => ⟨state_serveAll_start _ source, sum_facesIn_serveAll _ _,
    serveAll_metered _ source⟩, fun n q e hq he => ⟨_, ?_, rfl, fun r hr => ?_⟩,
    fun n q x hq hx => ⟨?_, rfl, ?_⟩,
    fun keep h => serveAll_keepAt h _, fun requests' h => serveAll_congr h _⟩
  · rw [getElem?_serveAll, hq, Option.map_some, state_serveAll_start, Request.serve_eq, he]
    rfl
  · exact (Expression.wordRoll?_eq_some_iff.mp hr).2.2.2
  · rw [getElem?_serveAll, hq, Option.map_some, Request.serve_of_error hx]
  · have hcount : totalDice (requests.take (n + 1)) = totalDice (requests.take n) := by
      rw [List.take_add_one, hq, totalDice, List.map_append, List.sum_append, ← totalDice]
      simp [Request.diceCount, hx]
    rw [state_serveAll_start, state_serveAll_start, hcount]

/-- Three requests, of which the second fails. -/
def requestsWithFault : List Request :=
  [.built Expression.twoAddedOneTaken, .written "d6*6",
    .written "d6 - d4 + 9223372036854775802"]

theorem serveAll_one_stream_withFault :
    Expression.parse "d6*6" = .error ⟨.unreadable, 2, "*"⟩ ∧
    (serveAll requestsWithFault (Roller.start Expression.oddSamples)).1[2]? =
      some (.ok
        (Expression.reachingGreatest.roll (Source.after Expression.oddSamples 3)).1.value) ∧
    (serveAll requestsWithFault (Roller.start Expression.oddSamples)).2.draws = 5 ∧
    serveAll [requestsWithFault[0], requestsWithFault[2]] (Roller.start Expression.oddSamples) =
      (keepAt (· != 1) (serveAll requestsWithFault (Roller.start Expression.oddSamples)).1,
        (serveAll requestsWithFault (Roller.start Expression.oddSamples)).2) := by
  have hfault : Expression.parse "d6*6" = .error ⟨.unreadable, 2, "*"⟩ := by cbv
  have hok : Expression.parse "d6 - d4 + 9223372036854775802" =
      .ok Expression.reachingGreatest := by cbv
  have hcount : totalDice (requestsWithFault.take 2) = 3 := by
    simp only [requestsWithFault, List.take, totalDice, List.map, Request.diceCount,
      Request.reading, hfault]
    decide
  have hall : totalDice (requestsWithFault.take 3) = 5 := by
    simp only [requestsWithFault, List.take, totalDice, List.map, Request.diceCount,
      Request.reading, hfault, hok]
    decide
  obtain ⟨hstate, hanswer, -, hkeep, -⟩ :=
    serveAll_one_stream Expression.oddSamples requestsWithFault
  refine ⟨hfault, ?_, ?_, hkeep (· != 1) fun n q hq hn => ?_⟩
  · obtain ⟨roll, hroll, rfl, -⟩ := hanswer 2 _ _ rfl hok
    rw [hroll, hcount]
  · exact (congrArg Roller.draws (hstate 3).1).trans hall
  · obtain rfl : n = 1 := by simpa using hn
    obtain rfl : Request.written "d6*6" = q := Option.some.inj hq
    exact ⟨_, hfault⟩

end DiceSum

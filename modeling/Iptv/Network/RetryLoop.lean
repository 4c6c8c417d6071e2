import Iptv.Network.HttpClient

namespace Iptv.Network

/-- The transfer context that the callbacks of all attempts write to. -/
structure TransferContext where
  response : HttpResponse
  abortedByUser : Bool := false

def HttpResponse.clear (_ : HttpResponse) : HttpResponse where
  statusCode := httpStatusUnknown
  body := []
  metrics := {}

def HttpResponse.appendToBody (response : HttpResponse) (src : List UInt8) : HttpResponse :=
  { response with body := response.body ++ src }

/-- The flag is set, not cleared; `stopRequested` is the stop token at this moment. -/
def consumeAbortRequest (stopRequested : Bool) (ctx : TransferContext) : Bool × TransferContext :=
  if stopRequested then (true, { ctx with abortedByUser := true }) else (false, ctx)

/-- The number of bytes consumed; zero tells libcurl to abort the transfer. -/
def writeBodyChunk (stopRequested : Bool) (ctx : TransferContext) (chunk : List UInt8) : Nat × TransferContext :=
  let (abort, ctx) := consumeAbortRequest stopRequested ctx
  if abort then (0, ctx) else (chunk.length, { ctx with response := ctx.response.appendToBody chunk })

def progressCallback (stopRequested : Bool) (ctx : TransferContext) : Int × TransferContext :=
  let (abort, ctx) := consumeAbortRequest stopRequested ctx
  if abort then (1, ctx) else (0, ctx)

/-- A callback of libcurl in the middle of a transfer, with the stop token as it is then. -/
inductive CallbackEvent
  | body (stopRequested : Bool) (chunk : List UInt8)
  | progress (stopRequested : Bool)

def CallbackEvent.stopRequested : CallbackEvent → Bool
  | .body stopRequested _ => stopRequested
  | .progress stopRequested => stopRequested

def CallbackEvent.run (ctx : TransferContext) : CallbackEvent → TransferContext
  | .body stopRequested chunk => (writeBodyChunk stopRequested ctx chunk).2
  | .progress stopRequested => (progressCallback stopRequested ctx).2

/-- What happens in one turn of the retry loop: the callbacks, the result code and
the status that libcurl reports, the measured times, and the stop token behind the transfer. -/
structure Attempt where
  events : List CallbackEvent
  code : CurlCode
  status : Int
  duration : Int := 0
  ttfb : Int := 0
  stopRequested : Bool := false

def executeTransfer (attempt : Attempt) (ctx : TransferContext) : TransferContext :=
  attempt.events.foldl CallbackEvent.run ctx

def collectTiming (attempt : Attempt) (response : HttpResponse) : HttpResponse :=
  { response with
    metrics :=
      { ttfb := attempt.ttfb
        totalDuration := attempt.duration
        bytesDownloaded := response.body.length } }

/-- The status is stored in 16 bits. -/
def collectStatusCode (attempt : Attempt) (response : HttpResponse) : HttpResponse :=
  if attempt.code ≠ .ok then { response with statusCode := httpStatusUnknown }
  else { response with statusCode := Int.bmod attempt.status (2 ^ 16) }

/-- The variables of the loop of `download`. -/
structure LoopState where
  ctx : TransferContext
  currentDelay : Int
  attempt : UInt32

/-- How a turn ends: with the response, or in front of the next one, behind a
sleep that is drawn between zero and the given bound. -/
inductive TurnEnd
  | done (response : HttpResponse)
  | again (sleep : Option Int) (next : LoopState)

def sleepBound (strategy : BackoffStrategy) (currentDelay : Int) : Option Int :=
  match strategy with
  | .none => none
  | .fixed | .exponential => some currentDelay

def turn (policy : RetryPolicy) (s : LoopState) (attempt : Attempt) : TurnEnd :=
  let ctx := executeTransfer attempt { s.ctx with response := s.ctx.response.clear }
  let response := collectStatusCode attempt (collectTiming attempt ctx.response)
  if attempt.code = .ok ∧ response.isSuccess = true then .done response
  else
    let aborted := decide (attempt.code = .abortedByCallback) || ctx.abortedByUser || attempt.stopRequested
    let transient := isTransientError attempt.code response.statusCode
    if shouldStopRetrying aborted transient s.attempt.toNat policy.maxRetries.toNat then .done response
    else
      .again (sleepBound policy.strategy s.currentDelay)
        { ctx := { ctx with response }
          currentDelay := applyBackoffDelay policy.strategy s.currentDelay policy.maxDelay
          attempt := s.attempt + 1 }

/-- What a call of `download` leaves: its response, the number of attempts, and the
bounds of the sleeps between them. -/
structure Downloaded where
  response : HttpResponse
  attempts : Nat
  sleeps : List Int

def Attempt.accepted (attempt : Attempt) : List (List UInt8) :=
  attempt.events.filterMap fun
    | .body false chunk => some chunk
    | _ => none

/-- The stop token was seen to be stopped, by a callback or behind the transfer. -/
def Attempt.stopped (attempt : Attempt) : Bool :=
  attempt.events.any CallbackEvent.stopRequested || attempt.stopRequested

def Attempt.aborted (attempt : Attempt) : Bool :=
  decide (attempt.code = .abortedByCallback) || attempt.stopped

/-- The attempt as one transfer. -/
def Attempt.transfer (attempt : Attempt) : Transfer where
  code := attempt.code
  status := attempt.status
  body := attempt.accepted.flatten
  duration := attempt.duration
  ttfb := attempt.ttfb

def Attempt.response (attempt : Attempt) : HttpResponse := attempt.transfer.response

/-- The attempt failed in a way that is worth another one, and nobody asked to stop. -/
def Attempt.retried (attempt : Attempt) : Bool :=
  !(decide (attempt.code = .ok) && attempt.response.isSuccess) && !attempt.aborted &&
    isTransientError attempt.code attempt.response.statusCode

/-- The callbacks append the accepted chunks and remember a stop. -/
theorem executeTransfer_eq (attempt : Attempt) (ctx : TransferContext) :
    executeTransfer attempt ctx =
      { response := { ctx.response with body := ctx.response.body ++ attempt.accepted.flatten }
        abortedByUser := ctx.abortedByUser || attempt.events.any CallbackEvent.stopRequested } := by
  obtain ⟨events, code, status, duration, ttfb, stopRequested⟩ := attempt
  simp only [executeTransfer, Attempt.accepted]
  induction events generalizing ctx with
  | nil => simp
  | cons event rest ih =>
    rw [List.foldl_cons, ih]
    cases event with
    | body stop chunk =>
      cases stop <;>
        simp [CallbackEvent.run, writeBodyChunk, consumeAbortRequest, HttpResponse.appendToBody,
          CallbackEvent.stopRequested]
    | progress stop =>
      cases stop <;>
        simp [CallbackEvent.run, progressCallback, consumeAbortRequest, CallbackEvent.stopRequested]

/-- Whatever an earlier attempt left in the response, a turn ends with that of its own attempt. -/
theorem collected_eq (attempt : Attempt) (ctx : TransferContext) :
    collectStatusCode attempt (collectTiming attempt
        (executeTransfer attempt { ctx with response := ctx.response.clear }).response) = attempt.response := by
  rw [executeTransfer_eq]
  unfold collectStatusCode collectTiming Attempt.response Transfer.response HttpResponse.clear
  by_cases ok : attempt.code = .ok
  · simp [ok, Attempt.transfer]
  · simp [ok, Attempt.transfer]

/-- Behind an attempt that did not succeed, the loop stops unless the attempt is retried. -/
theorem shouldStopRetrying_iff {attempt : Attempt}
    (failed : ¬ (attempt.code = .ok ∧ attempt.response.isSuccess = true)) (number retries : UInt32) :
    shouldStopRetrying attempt.aborted (isTransientError attempt.code attempt.response.statusCode) number.toNat
        retries.toNat = true ↔ ¬ (attempt.retried = true ∧ number ≠ retries) := by
  have same : number.toNat = retries.toNat ↔ number = retries := UInt32.toNat_inj
  have unsuccessful : (decide (attempt.code = .ok) && attempt.response.isSuccess) = false := by simpa using failed
  unfold shouldStopRetrying Attempt.retried
  rw [unsuccessful]
  cases aborted : attempt.aborted with
  | true => simp
  | false =>
    cases transient : isTransientError attempt.code attempt.response.statusCode with
    | true => simp [same]
    | false => simp

theorem not_retried {attempt : Attempt} (success : attempt.code = .ok ∧ attempt.response.isSuccess = true) :
    attempt.retried = false := by
  simp [Attempt.retried, success]

/-- A retried attempt has seen no stop. -/
theorem retried_running {attempt : Attempt} (retried : attempt.retried = true) :
    attempt.events.any CallbackEvent.stopRequested = false := by
  simp only [Attempt.retried, Attempt.aborted, Attempt.stopped, Bool.and_eq_true, Bool.not_eq_true',
    Bool.or_eq_false_iff] at retried
  exact retried.1.2.2.1

/-- The two tests behind an attempt, the one for success and the one for giving up, come to one. -/
theorem retried_decides {α : Type} (attempt : Attempt) (number retries : UInt32) (done again : α) :
    (if attempt.code = .ok ∧ attempt.response.isSuccess = true then done
      else if shouldStopRetrying attempt.aborted (isTransientError attempt.code attempt.response.statusCode)
        number.toNat retries.toNat then done else again) =
      if attempt.retried = true ∧ number ≠ retries then again else done := by
  by_cases success : attempt.code = .ok ∧ attempt.response.isSuccess = true
  · rw [if_pos success, if_neg (by simp [not_retried success])]
  · have stopping := shouldStopRetrying_iff success number retries
    rw [if_neg success]
    by_cases goesOn : attempt.retried = true ∧ number ≠ retries
    · rw [if_neg (fun stop => stopping.mp stop goesOn), if_pos goesOn]
    · rw [if_pos (stopping.mpr goesOn), if_neg goesOn]

/-- As long as no callback has seen a stop, a turn is decided by its attempt alone. -/
theorem turn_eq (policy : RetryPolicy) {s : LoopState} (running : s.ctx.abortedByUser = false) (attempt : Attempt) :
    turn policy s attempt =
      if attempt.retried = true ∧ s.attempt ≠ policy.maxRetries then
        .again (sleepBound policy.strategy s.currentDelay)
          { ctx := { response := attempt.response }
            currentDelay := applyBackoffDelay policy.strategy s.currentDelay policy.maxDelay
            attempt := s.attempt + 1 }
      else .done attempt.response := by
  have stops : (executeTransfer attempt { s.ctx with response := s.ctx.response.clear }).abortedByUser =
      attempt.events.any CallbackEvent.stopRequested := by
    rw [executeTransfer_eq, running, Bool.false_or]
  have aborted : (decide (attempt.code = .abortedByCallback) || attempt.events.any CallbackEvent.stopRequested ||
      attempt.stopRequested) = attempt.aborted := Bool.or_assoc ..
  unfold turn
  simp only [collected_eq, stops, aborted]
  rw [retried_decides]
  by_cases goesOn : attempt.retried = true ∧ s.attempt ≠ policy.maxRetries
  · rw [if_pos goesOn, if_pos goesOn, retried_running goesOn.1]
  · rw [if_neg goesOn, if_neg goesOn]

/-- A turn is an attempt of the download as the sessions see it. -/
theorem turn_finish (policy : RetryPolicy) {s : LoopState} (running : s.ctx.abortedByUser = false)
    (attempt : Attempt) (url : Text) :
    ({ url, attempt := s.attempt.toNat, currentDelay := s.currentDelay } : Download).finish policy attempt.stopped
        attempt.transfer =
      match turn policy s attempt with
      | .done response => .done response
      | .again _ next => .retry
          { url, attempt := s.attempt.toNat + 1, currentDelay := next.currentDelay, performing := false } := by
  have decides := retried_decides attempt s.attempt policy.maxRetries (AttemptEnd.done attempt.response)
    (.retry { url, attempt := s.attempt.toNat + 1, performing := false,
              currentDelay := applyBackoffDelay policy.strategy s.currentDelay policy.maxDelay })
  rw [turn_eq policy running]
  refine Eq.trans decides ?_
  by_cases goesOn : attempt.retried = true ∧ s.attempt ≠ policy.maxRetries
  · rw [if_pos goesOn, if_pos goesOn]
  · rw [if_neg goesOn, if_neg goesOn]

theorem turn_next {policy : RetryPolicy} {s next : LoopState} {attempt : Attempt} {sleep : Option Int}
    (run : turn policy s attempt = .again sleep next) :
    s.attempt ≠ policy.maxRetries ∧ next.attempt = s.attempt + 1 := by
  unfold turn at run
  dsimp only at run
  split at run
  · cases run
  · split at run
    · cases run
    · rename_i goesOn
      cases run
      refine ⟨fun last => goesOn ?_, rfl⟩
      simp [shouldStopRetrying, last]

/-- The retry loop. Its counter never passes the largest value, since the turn at
`maxRetries` is the last one. -/
def downloadLoop (policy : RetryPolicy) (attempts : Nat → Attempt) (s : LoopState) : Downloaded :=
  if s.attempt ≤ policy.maxRetries then
    match _ : turn policy s (attempts s.attempt.toNat) with
    | .done response => ⟨response, 1, []⟩
    | .again sleep next =>
      let rest := downloadLoop policy attempts next
      ⟨rest.response, rest.attempts + 1, sleep.toList ++ rest.sleeps⟩
  else ⟨s.ctx.response, 0, []⟩
termination_by policy.maxRetries.toNat - s.attempt.toNat
decreasing_by
  rename_i inRange run
  obtain ⟨different, advanced⟩ := turn_next run
  have before : s.attempt.toNat < policy.maxRetries.toNat :=
    lt_of_le_of_ne (UInt32.le_iff_toNat_le.mp inRange) fun same => different (UInt32.toNat_inj.mp same)
  have small := policy.maxRetries.toNat_lt
  rw [advanced, UInt32.toNat_add, UInt32.toNat_one]
  omega

def download (policy : RetryPolicy) (attempts : Nat → Attempt) : Downloaded :=
  downloadLoop policy attempts
    { ctx := { response := { statusCode := httpStatusUnknown, body := [], metrics := {} } }
      currentDelay := policy.initialDelay
      attempt := 0 }

/-- The download of a session, `k` attempts behind the one with number `first`. -/
def downloadAt (policy : RetryPolicy) (url : Text) (first : Nat) (delay : Int) (k : Nat) : Download where
  url := url
  attempt := first + k
  currentDelay := (fun current => applyBackoffDelay policy.strategy current policy.maxDelay)^[k] delay

theorem downloadAt_next (policy : RetryPolicy) (url : Text) (first : Nat) (delay : Int) (k : Nat) :
    downloadAt policy url (first + 1) (applyBackoffDelay policy.strategy delay policy.maxDelay) k =
      downloadAt policy url first delay (k + 1) := by
  rw [downloadAt, downloadAt, Nat.add_assoc, Nat.add_comm 1, Function.iterate_succ_apply]

/-- What the loop leaves when it starts at attempt number `first`: it has gone on
behind attempts that were worth it only, and ends with the response of the last one.
A session's download takes the same attempts to the same end. -/
structure Ran (policy : RetryPolicy) (attempts : Nat → Attempt) (first : Nat) (delay : Int) (ran : Downloaded) :
    Prop where
  some : 0 < ran.attempts
  bound : first + ran.attempts ≤ policy.maxRetries.toNat + 1
  retried : ∀ k, k + 1 < ran.attempts → (attempts (first + k)).retried = true
  last : (attempts (first + (ran.attempts - 1))).retried = false ∨
    first + ran.attempts = policy.maxRetries.toNat + 1
  response : ran.response = (attempts (first + (ran.attempts - 1))).response
  sleeps : policy.strategy ≠ .none → ran.sleeps =
    List.iterate (fun current => applyBackoffDelay policy.strategy current policy.maxDelay) delay (ran.attempts - 1)
  session : ∀ url k, k < ran.attempts →
    (downloadAt policy url first delay k).finish policy (attempts (first + k)).stopped (attempts (first + k)).transfer =
      if k + 1 < ran.attempts then .retry (downloadAt policy url first delay (k + 1)) else .done ran.response

theorem Ran.next {policy : RetryPolicy} {attempts : Nat → Attempt} {first : Nat} {delay : Int} {rest : Downloaded}
    (ran : Ran policy attempts (first + 1) (applyBackoffDelay policy.strategy delay policy.maxDelay) rest)
    (retried : (attempts first).retried = true)
    (finished : ∀ url, (downloadAt policy url first delay 0).finish policy (attempts first).stopped
      (attempts first).transfer = .retry (downloadAt policy url first delay 1)) :
    Ran policy attempts first delay
      ⟨rest.response, rest.attempts + 1, (sleepBound policy.strategy delay).toList ++ rest.sleeps⟩ := by
  have some := ran.some
  have bound := ran.bound
  have index : first + (rest.attempts + 1 - 1) = first + 1 + (rest.attempts - 1) := by omega
  refine ⟨by dsimp only; omega, by dsimp only; omega, ?_, ?_, ?_, ?_, ?_⟩
  · intro k before
    cases k with
    | zero => exact retried
    | succ k =>
      have later := ran.retried k (by dsimp only at before; omega)
      rwa [Nat.add_assoc, Nat.add_comm 1] at later
  · dsimp only
    rw [index]
    exact ran.last.imp_right fun last => by omega
  · dsimp only
    rw [index]
    exact ran.response
  · intro sleeping
    have first : sleepBound policy.strategy delay = .some delay := by
      cases strategy : policy.strategy with
      | none => exact absurd strategy sleeping
      | fixed | exponential => rfl
    obtain ⟨more, count⟩ := Nat.exists_eq_succ_of_ne_zero (Nat.pos_iff_ne_zero.mp some)
    rw [first, ran.sleeps sleeping, count]
    rfl
  · intro url k before
    cases k with
    | zero =>
      rw [if_pos (by dsimp only; omega)]
      exact finished url
    | succ k =>
      have later := ran.session url k (by dsimp only at before; omega)
      rw [downloadAt_next, downloadAt_next, Nat.add_assoc, Nat.add_comm 1] at later
      simpa only [Nat.add_lt_add_iff_right] using later

theorem downloadLoop_ran (policy : RetryPolicy) (attempts : Nat → Attempt) {s : LoopState}
    (running : s.ctx.abortedByUser = false) (inRange : s.attempt ≤ policy.maxRetries) :
    Ran policy attempts s.attempt.toNat s.currentDelay (downloadLoop policy attempts s) := by
  have numbers := UInt32.le_iff_toNat_le.mp inRange
  have small := policy.maxRetries.toNat_lt
  rw [downloadLoop, if_pos inRange]
  split
  · rename_i response run
    rw [turn_eq policy running] at run
    split at run
    · cases run
    · rename_i stops
      cases run
      refine ⟨Nat.one_pos, by dsimp only; omega, by simp, ?_, rfl, fun _ => rfl, ?_⟩
      · by_cases last : s.attempt = policy.maxRetries
        · exact Or.inr (by rw [last])
        · exact Or.inl (by simpa [last] using stops)
      · intro url k only
        obtain rfl : k = 0 := Nat.lt_one_iff.mp only
        have same := turn_finish policy running (attempts s.attempt.toNat) url
        rw [turn_eq policy running, if_neg stops] at same
        exact same
  · rename_i sleep next run
    obtain ⟨different, advanced⟩ := turn_next run
    have before : s.attempt.toNat < policy.maxRetries.toNat :=
      lt_of_le_of_ne numbers fun same => different (UInt32.toNat_inj.mp same)
    have successor : next.attempt.toNat = s.attempt.toNat + 1 := by
      rw [advanced, UInt32.toNat_add, UInt32.toNat_one]
      omega
    have same := turn_finish policy running (attempts s.attempt.toNat)
    rw [run] at same
    rw [turn_eq policy running] at run
    split at run
    · rename_i goesOn
      have rest := downloadLoop_ran policy attempts (s := next) (by cases run; rfl)
        (UInt32.le_iff_toNat_le.mpr (by omega))
      rw [successor] at rest
      cases run
      exact rest.next goesOn.1 same
    · cases run
termination_by policy.maxRetries.toNat - s.attempt.toNat
decreasing_by omega

theorem download_ran (policy : RetryPolicy) (attempts : Nat → Attempt) :
    Ran policy attempts 0 policy.initialDelay (download policy attempts) :=
  downloadLoop_ran policy attempts
    (s := { ctx := { response := { statusCode := httpStatusUnknown, body := [], metrics := {} } }
            currentDelay := policy.initialDelay
            attempt := 0 }) rfl (UInt32.le_iff_toNat_le.mpr (Nat.zero_le _))

/-- The response of a download is that of its last attempt alone, and every
attempt but the last one failed transiently without an abort. The last one has no
reason to be followed by another, unless the retries are used up; and the download
of a session goes through the same attempts. -/
structure Exact (policy : RetryPolicy) (attempts : Nat → Attempt) (ran : Downloaded) : Prop where
  some : 0 < ran.attempts
  bound : ran.attempts ≤ policy.maxRetries.toNat + 1
  retried : ∀ k, k + 1 < ran.attempts → ¬ ((attempts k).code = .ok ∧ (attempts k).response.isSuccess = true) ∧
    isTransientError (attempts k).code (attempts k).response.statusCode = true ∧ (attempts k).aborted = false
  last : ran.attempts = policy.maxRetries.toNat + 1 ∨
    ((attempts (ran.attempts - 1)).code = .ok ∧ (attempts (ran.attempts - 1)).response.isSuccess = true) ∨
    isTransientError (attempts (ran.attempts - 1)).code (attempts (ran.attempts - 1)).response.statusCode = false ∨
    (attempts (ran.attempts - 1)).aborted = true
  body : ran.response.body = (attempts (ran.attempts - 1)).accepted.flatten
  bytes : ran.response.metrics.bytesDownloaded = ran.response.body.length
  status : ran.response.statusCode =
    if (attempts (ran.attempts - 1)).code = .ok then (attempts (ran.attempts - 1)).status else httpStatusUnknown
  success : ran.response.isSuccess = true ↔ (attempts (ran.attempts - 1)).code = .ok ∧
    200 ≤ (attempts (ran.attempts - 1)).status ∧ (attempts (ran.attempts - 1)).status < 300
  session : ∀ url k, k < ran.attempts →
    (downloadAt policy url 0 policy.initialDelay k).finish policy (attempts k).stopped (attempts k).transfer =
      if k + 1 < ran.attempts then .retry (downloadAt policy url 0 policy.initialDelay (k + 1)) else .done ran.response

/-- What libcurl reports as the status of a response has at most three digits; it is zero without one. -/
def Attempt.HttpStatus (attempt : Attempt) : Prop := 0 ≤ attempt.status ∧ attempt.status ≤ 999

theorem response_status {attempt : Attempt} (http : attempt.HttpStatus) :
    attempt.response.statusCode = if attempt.code = .ok then attempt.status else httpStatusUnknown := by
  obtain ⟨low, high⟩ := http
  have stored : Int.bmod attempt.status (2 ^ 16) = attempt.status := Int.bmod_eq_of_le (by omega) (by omega)
  change (if attempt.code = .ok then Int.bmod attempt.status (2 ^ 16) else httpStatusUnknown) = _
  rw [stored]

/-- For every policy, every sequence of attempts and every moment of a stop, the
retry loop ends after at most one attempt more than there are retries. -/
theorem download_exact (policy : RetryPolicy) (attempts : Nat → Attempt) (http : ∀ k, (attempts k).HttpStatus) :
    Exact policy attempts (download policy attempts) := by
  obtain ⟨some, bound, retried, last, response, _, session⟩ := download_ran policy attempts
  simp only [Nat.zero_add] at bound retried last response session
  have status := response_status (http ((download policy attempts).attempts - 1))
  rw [← response] at status
  refine ⟨some, bound, ?_, ?_, by rw [response]; rfl, by rw [response]; rfl, status, ?_, session⟩
  · intro k before
    have again := retried k before
    simp only [Attempt.retried, Bool.and_eq_true, Bool.not_eq_true', Bool.and_eq_false_iff] at again
    obtain ⟨⟨failed, kept⟩, transient⟩ := again
    refine ⟨fun ⟨ok, success⟩ => ?_, transient, kept⟩
    simp [ok, success] at failed
  · rcases last with stops | used
    · refine Or.inr ?_
      simp only [Attempt.retried, Bool.and_eq_false_iff, Bool.not_eq_false', Bool.and_eq_true,
        decide_eq_true_eq] at stops
      rcases stops with (success | aborted) | fatal
      · exact Or.inl success
      · exact Or.inr (Or.inr aborted)
      · exact Or.inr (Or.inl fatal)
    · exact Or.inl used
  · rw [HttpResponse.isSuccess, status]
    split
    · rename_i ok
      simp [ok]
    · rename_i failed
      simp [failed, httpStatusUnknown]

/-- A timeout in the middle of a body, behind which the whole of another body arrives. -/
def interruptedThenWhole (k : Nat) : Attempt :=
  if k = 0 then { events := [.body false [1, 2]], code := .operationTimedOut, status := 200 }
  else { events := [.progress false, .body false [3], .body false [4]], code := .ok, status := 200 }

theorem download_exact_interrupted :
    Exact { maxRetries := 4294967295 } interruptedThenWhole
      (download { maxRetries := 4294967295 } interruptedThenWhole) :=
  download_exact _ _ fun k => by
    unfold interruptedThenWhole
    split <;> simp [Attempt.HttpStatus]

end Iptv.Network

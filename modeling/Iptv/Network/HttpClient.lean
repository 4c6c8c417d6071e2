import Mathlib.Algebra.Order.Ring.Rat
import Iptv.Lib.Text

namespace Iptv.Network

/-- The result codes of a transfer that the client tells apart. -/
inductive CurlCode
  | ok
  | operationTimedOut
  | couldntConnect
  | couldntResolveHost
  | abortedByCallback
  | other (code : Nat)
  deriving DecidableEq

inductive BackoffStrategy
  | none
  | fixed
  | exponential
  deriving DecidableEq

/-- Delays are in milliseconds. -/
structure RetryPolicy where
  maxRetries : UInt32 := 3
  initialDelay : Int := 1000
  maxDelay : Int := 15000
  strategy : BackoffStrategy := .exponential

/-- Durations are in microseconds. -/
structure NetworkMetrics where
  ttfb : Int := 0
  totalDuration : Int := 0
  bytesDownloaded : Nat := 0
  deriving DecidableEq

/-- Each operation on doubles rounds its result. -/
def NetworkMetrics.throughputMbps (round : Rat → Rat) (metrics : NetworkMetrics) : Rat :=
  if metrics.totalDuration ≤ 0 ∨ metrics.bytesDownloaded = 0 then 0
  else
    let seconds : Rat := round (round metrics.totalDuration / 1000000)
    let bits : Rat := round (round metrics.bytesDownloaded * 8)
    round (round (bits / seconds) / 1000000)

structure HttpResponse where
  statusCode : Int
  body : List UInt8
  metrics : NetworkMetrics
  deriving DecidableEq

def HttpResponse.isSuccess (response : HttpResponse) : Bool :=
  200 ≤ response.statusCode && response.statusCode < 300

def httpStatusUnknown : Int := -1

def httpStatusTooManyRequests : Int := 429

/-- What one `curl_easy_perform` did: its result code, the status the server
sent, the body the callbacks stored, and the measured times. -/
structure Transfer where
  code : CurlCode
  status : Int
  body : List UInt8
  duration : Int
  ttfb : Int
  deriving DecidableEq

/-- `collectTiming` and `collectStatusCode`; the status is stored in 16 bits. -/
def Transfer.response (transfer : Transfer) : HttpResponse where
  statusCode := if transfer.code = .ok then Int.bmod transfer.status (2 ^ 16) else httpStatusUnknown
  body := transfer.body
  metrics :=
    { ttfb := transfer.ttfb
      totalDuration := transfer.duration
      bytesDownloaded := transfer.body.length }

def isTransientError (code : CurlCode) (status : Int) : Bool :=
  code = .operationTimedOut || code = .couldntConnect || code = .couldntResolveHost ||
    (500 ≤ status && status < 600) || status = httpStatusTooManyRequests

def shouldStopRetrying (aborted transient : Bool) (attempt retries : Nat) : Bool :=
  if aborted then true else !transient || attempt == retries

/-- How `applyBackoffDelay` advances the delay it has slept for. -/
def applyBackoffDelay (strategy : BackoffStrategy) (currentDelay maxDelay : Int) : Int :=
  match strategy with
  | .exponential => min (currentDelay * 2) maxDelay
  | .none | .fixed => currentDelay

/-- A call of `HttpClient::download` in its retry loop: in front of an attempt,
or inside the transfer of one. -/
structure Download where
  url : Text
  attempt : Nat := 0
  currentDelay : Int
  performing : Bool := false
  deriving DecidableEq

def Download.start (policy : RetryPolicy) (url : Text) : Download :=
  { url, currentDelay := policy.initialDelay }

inductive AttemptEnd
  | retry (download : Download)
  | done (response : HttpResponse)

/-- The rest of a turn of the retry loop behind the transfer. `stopped` is the
state of the call's stop token, which covers `ctx.aborted_by_user`: the
callbacks set that flag only once the token is stopped. -/
def Download.finish (policy : RetryPolicy) (stopped : Bool) (download : Download) (transfer : Transfer) :
    AttemptEnd :=
  let response := transfer.response
  if transfer.code = .ok ∧ response.isSuccess = true then .done response
  else
    let aborted := decide (transfer.code = .abortedByCallback) || stopped
    let transient := isTransientError transfer.code response.statusCode
    if shouldStopRetrying aborted transient download.attempt policy.maxRetries.toNat then .done response
    else
      .retry { download with
        attempt := download.attempt + 1
        currentDelay := applyBackoffDelay policy.strategy download.currentDelay policy.maxDelay
        performing := false }

theorem finish_stopped (policy : RetryPolicy) (download : Download) (transfer : Transfer) :
    download.finish policy true transfer = .done transfer.response := by
  unfold Download.finish shouldStopRetrying
  simp

theorem finish_done {policy : RetryPolicy} {stopped : Bool} {download : Download} {transfer : Transfer}
    {response : HttpResponse} (run : download.finish policy stopped transfer = .done response) :
    response = transfer.response := by
  unfold Download.finish at run
  dsimp only at run
  split at run
  · cases run
    rfl
  · split at run <;> cases run
    rfl

/-- A retried download is the same one in front of its next attempt. -/
theorem finish_retry {policy : RetryPolicy} {stopped : Bool} {download next : Download} {transfer : Transfer}
    (run : download.finish policy stopped transfer = .retry next) :
    stopped = false ∧ next.url = download.url ∧ next.attempt = download.attempt + 1 ∧
      next.performing = false := by
  cases stopped with
  | true => simp [finish_stopped] at run
  | false =>
    unfold Download.finish at run
    dsimp only at run
    split at run
    · simp at run
    · split at run
      · simp at run
      · cases run
        exact ⟨rfl, rfl, rfl, rfl⟩

end Iptv.Network

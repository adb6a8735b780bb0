import Mathlib.Data.List.Basic

/-!
# Recovery of a lost connection

`_connect_with_retry` and the part of `_run_loop` around it, from the loss of an
established connection on.  A connection attempt fails with exceptions of several
classes, raised in several layers, and three `except` clauses sort them: the retry loop
passes `MQTTConnectError` on and retries on `OSError` and `MQTTTimeoutError`, and the run
loop reports `MQTTConnectError`, `MQTTTimeoutError` and `OSError` to the application.

`MQTTDisconnectedError`, the exception of a peer that closes or resets the connection
before its CONNACK, is in none of the three.  It ends the run loop without a further
attempt and without a report.  Otherwise the recovery goes on until the first success,
the first refusal or the last attempt allowed.
-/

namespace Zmqtt

/-- The exceptions of a connection attempt, by class. -/
inductive ConnectFailure
  | connectError (returnCode : Int)
  | timeoutError
  | disconnectedError
  | osError
deriving DecidableEq, Repr

namespace ConnectFailure

/-- `except MQTTConnectError` of `_connect_with_retry`. -/
def isRefusal : ConnectFailure → Bool
  | .connectError _ => true
  | _ => false

/-- `except (OSError, MQTTTimeoutError)` of `_connect_with_retry`. -/
def isRetried : ConnectFailure → Bool
  | .osError => true
  | .timeoutError => true
  | _ => false

/-- `except (MQTTConnectError, MQTTTimeoutError, OSError)` of `_run_loop`. -/
def isReported : ConnectFailure → Bool
  | .connectError _ => true
  | .timeoutError => true
  | .osError => true
  | .disconnectedError => false

end ConnectFailure

/-- What `StreamReader.read` does: some bytes, none at the end of the stream, or
`OSError`. -/
inductive StreamRead
  | data
  | eof
  | reset
deriving DecidableEq, Repr

/-- `StreamTransport.read`: both ends of a connection are `MQTTDisconnectedError`. -/
def StreamRead.read : StreamRead → Except ConnectFailure Unit
  | .data => .ok ()
  | .eof => .error .disconnectedError
  | .reset => .error .disconnectedError

/-- What an attempt meets. -/
inductive Attempt
  | accepted
  | refused (returnCode : Int)
  | unreachable
  | silent
  | closed
  | reset
deriving DecidableEq, Repr

/-- The peer closes or resets the connection before its CONNACK. -/
def Attempt.isLost : Attempt → Bool
  | .closed => true
  | .reset => true
  | _ => false

/-- `_await_connack`, under the timeout of `connect`. -/
def awaitConnack : Attempt → Except ConnectFailure Unit
  | .refused returnCode => do
      StreamRead.data.read
      throw (.connectError returnCode)
  | .silent => throw .timeoutError
  | .closed => StreamRead.eof.read
  | .reset => StreamRead.reset.read
  | _ => StreamRead.data.read

/-- `_connect`: the transport factory, then the handshake. -/
def connect (attempt : Attempt) : Except ConnectFailure Unit :=
  if attempt = .unreachable then throw .osError else awaitConnack attempt

/-- `ReconnectConfig`, without its delays. -/
structure ReconnectConfig where
  enabled : Bool := true
  maxAttempts : Option Int := none
deriving DecidableEq, Repr

/-- Where a recovery stands. -/
inductive Progress
  | attempting
  | connected
  | raised (error : ConnectFailure)
deriving DecidableEq, Repr

/-- The recovery: the attempts made so far, where it stands, and how often
`on_connection_recovery_failed` was awaited. -/
structure Recovery where
  attempts : Nat
  progress : Progress
  notifications : Nat := 0
deriving DecidableEq, Repr

namespace ReconnectConfig

variable (config : ReconnectConfig)

/-- `_connect_with_retry` on the attempts it meets; `attempt` is its counter of failures.
It is still at work when they are used up. -/
def connectWithRetry (attempt : Nat) : List Attempt → Nat × Progress
  | [] => (0, .attempting)
  | first :: rest =>
      match connect first with
      | .ok _ => (1, .connected)
      | .error error =>
          if error.isRefusal then (1, .raised error)
          else if error.isRetried then
            let attempt := attempt + 1
            if !config.enabled || config.maxAttempts.any (fun max => (attempt : Int) ≥ max) then
              (1, .raised error)
            else
              let later := connectWithRetry attempt rest
              (later.1 + 1, later.2)
          else (1, .raised error)

/-- `_notify_connection_recovery_failed`; `callback` tells whether one is set. -/
def notify (callback : Bool) : Nat := if callback then 1 else 0

/-- The run loop from the loss of a connection on; `loss` is what ended it. -/
def recover (callback : Bool) (loss : ConnectFailure) (attempts : List Attempt) : Recovery :=
  if !config.enabled then
    { attempts := 0, progress := .raised loss, notifications := notify callback }
  else
    let later := config.connectWithRetry 0 attempts
    { attempts := later.1
      progress := later.2
      notifications :=
        match later.2 with
        | .raised error => if error.isReported then notify callback else 0
        | _ => 0 }

/-! ## What a recovery is to do -/

/-- The attempt after `failures` failures is the last one: a success, a refusal or the
`max_attempts`-th failure. -/
def isLast (failures : Nat) : Attempt → Bool
  | .accepted => true
  | .refused _ => true
  | _ => config.maxAttempts.any fun max => ((failures + 1 : Nat) : Int) ≥ max

/-- The place of the last attempt. -/
def lastAttempt (failures : Nat) (attempts : List Attempt) : Option Nat :=
  (attempts.zipIdx failures).findIdx? fun item => config.isLast item.2 item.1

/-- The number of attempts to be made. -/
def attemptsDue (failures : Nat) (attempts : List Attempt) : Nat :=
  ((config.lastAttempt failures attempts).map (· + 1)).getD attempts.length

/-- The attempts go on until the last one; a recovery that ends without success is
reported once, any other never. -/
def Recovers (failures : Nat) (attempts : List Attempt) (recovery : Recovery) : Prop :=
  recovery.attempts = config.attemptsDue failures attempts ∧
    match config.lastAttempt failures attempts with
    | none => recovery.progress = .attempting ∧ recovery.notifications = 0
    | some i =>
        if attempts[i]? = some .accepted then
          recovery.progress = .connected ∧ recovery.notifications = 0
        else (∃ error, recovery.progress = .raised error) ∧ recovery.notifications = 1

variable {config} {failures : Nat} {first : Attempt} {rest : List Attempt}

theorem lastAttempt_cons :
    config.lastAttempt failures (first :: rest) =
      if config.isLast failures first then some 0
      else (config.lastAttempt (failures + 1) rest).map (· + 1) := by
  rw [lastAttempt, List.zipIdx_cons, List.findIdx?_cons]
  rfl

theorem attemptsDue_last (hlast : config.isLast failures first = true) :
    config.attemptsDue failures (first :: rest) = 1 := by
  rw [attemptsDue, lastAttempt_cons, if_pos hlast]
  rfl

theorem attemptsDue_cons (hlast : config.isLast failures first = false) :
    config.attemptsDue failures (first :: rest) = config.attemptsDue (failures + 1) rest + 1 := by
  rw [attemptsDue, attemptsDue, lastAttempt_cons, hlast]
  cases config.lastAttempt (failures + 1) rest <;> rfl

/-- An attempt that is not the last one is one more than what comes after it. -/
theorem recovers_cons (hlast : config.isLast failures first = false) {attempts notifications : Nat}
    {progress : Progress} :
    config.Recovers failures (first :: rest) ⟨attempts + 1, progress, notifications⟩ ↔
      config.Recovers (failures + 1) rest ⟨attempts, progress, notifications⟩ := by
  unfold Recovers
  rw [attemptsDue_cons hlast, lastAttempt_cons, hlast]
  cases config.lastAttempt (failures + 1) rest with
  | none => simp
  | some i => simp

/-- The last attempt. -/
theorem recovers_last (hlast : config.isLast failures first = true) {notifications : Nat}
    {progress : Progress} :
    config.Recovers failures (first :: rest) ⟨1, progress, notifications⟩ ↔
      if first = .accepted then progress = .connected ∧ notifications = 0
      else (∃ error, progress = .raised error) ∧ notifications = 1 := by
  unfold Recovers
  rw [attemptsDue_last hlast, lastAttempt_cons, if_pos hlast]
  simp

/-- How often a recovery that stands there was reported. -/
def reported (progress : Progress) : Nat :=
  match progress with
  | .raised error => if error.isReported then 1 else 0
  | _ => 0

/-- A recovery that raised and was not reported does not do what it is to do. -/
theorem not_recovers_unreported {attempts : Nat} {error : ConnectFailure} {met : List Attempt} :
    ¬ config.Recovers failures met ⟨attempts, .raised error, 0⟩ := by
  rintro ⟨-, h⟩
  cases hlast : config.lastAttempt failures met with
  | none => simp [hlast] at h
  | some i =>
      simp only [hlast] at h
      split at h <;> simp at h

/-- A failure that is retried. -/
theorem connectWithRetry_retried {error : ConnectFailure} (henabled : config.enabled = true)
    (hconnect : connect first = .error error) (hretried : error.isRetried = true)
    (hlast : config.isLast failures first =
      config.maxAttempts.any fun max => ((failures + 1 : Nat) : Int) ≥ max) :
    config.connectWithRetry failures (first :: rest) =
      if config.isLast failures first then (1, .raised error)
      else ((config.connectWithRetry (failures + 1) rest).1 + 1,
        (config.connectWithRetry (failures + 1) rest).2) := by
  have hrefusal : error.isRefusal = false := by
    cases error <;> first | rfl | cases hretried
  rw [connectWithRetry, hconnect, hlast]
  simp only [hrefusal, hretried, henabled]
  rfl

/-- The retry loop and its report do what they are to do if and only if no attempt that
is to be made meets a peer that closes or resets the connection. -/
theorem connectWithRetry_recovers (henabled : config.enabled = true) (failures : Nat)
    (attempts : List Attempt) :
    config.Recovers failures attempts
        ⟨(config.connectWithRetry failures attempts).1,
          (config.connectWithRetry failures attempts).2,
          reported (config.connectWithRetry failures attempts).2⟩ ↔
      ∀ attempt ∈ attempts.take (config.attemptsDue failures attempts),
        attempt.isLost = false := by
  induction attempts generalizing failures with
  | nil => simp [connectWithRetry, Recovers, lastAttempt, attemptsDue, reported]
  | cons first rest ih =>
      -- a failure that is retried, whichever of the two
      have hretried : ∀ error, connect first = .error error → error.isRetried = true →
          error.isReported = true → first ≠ .accepted → first.isLost = false →
          (config.isLast failures first =
            config.maxAttempts.any fun max => ((failures + 1 : Nat) : Int) ≥ max) →
          (config.Recovers failures (first :: rest)
            ⟨(config.connectWithRetry failures (first :: rest)).1,
              (config.connectWithRetry failures (first :: rest)).2,
              reported (config.connectWithRetry failures (first :: rest)).2⟩ ↔
            ∀ attempt ∈ (first :: rest).take (config.attemptsDue failures (first :: rest)),
              attempt.isLost = false) := by
        intro error hconnect hretried hreported hfirst hlost hmax
        rw [connectWithRetry_retried henabled hconnect hretried hmax]
        cases hlast : config.isLast failures first with
        | true =>
            rw [if_pos rfl, recovers_last hlast, if_neg hfirst, attemptsDue_last hlast]
            simp [reported, hreported, hlost]
        | false =>
            rw [if_neg Bool.false_ne_true, recovers_cons hlast, ih, attemptsDue_cons hlast]
            simp [hlost]
      -- a lost connection, which ends the loop and is not reported
      have hlost : connect first = .error .disconnectedError → first.isLost = true →
          (config.Recovers failures (first :: rest)
            ⟨(config.connectWithRetry failures (first :: rest)).1,
              (config.connectWithRetry failures (first :: rest)).2,
              reported (config.connectWithRetry failures (first :: rest)).2⟩ ↔
            ∀ attempt ∈ (first :: rest).take (config.attemptsDue failures (first :: rest)),
              attempt.isLost = false) := by
        intro hconnect hlost
        have hstop : config.connectWithRetry failures (first :: rest) =
            (1, .raised .disconnectedError) := by
          rw [connectWithRetry, hconnect]
          rfl
        rw [hstop]
        refine iff_of_false not_recovers_unreported fun hnone => ?_
        have hmem : first ∈ (first :: rest).take (config.attemptsDue failures (first :: rest)) := by
          cases hlast : config.isLast failures first with
          | true =>
              rw [attemptsDue_last hlast]
              exact List.mem_cons_self
          | false =>
              rw [attemptsDue_cons hlast]
              exact List.mem_cons_self
        rw [hnone first hmem] at hlost
        cases hlost
      cases first with
      | accepted =>
          have hlast : config.isLast failures .accepted = true := rfl
          show config.Recovers failures (.accepted :: rest) ⟨1, .connected, 0⟩ ↔ _
          rw [recovers_last hlast, attemptsDue_last hlast]
          simp [Attempt.isLost]
      | refused returnCode =>
          have hlast : config.isLast failures (.refused returnCode) = true := rfl
          show config.Recovers failures (.refused returnCode :: rest)
            ⟨1, .raised (.connectError returnCode), 1⟩ ↔ _
          rw [recovers_last hlast, attemptsDue_last hlast]
          simp [Attempt.isLost]
      | unreachable => exact hretried .osError rfl rfl rfl (by simp) rfl rfl
      | silent => exact hretried .timeoutError rfl rfl rfl (by simp) rfl rfl
      | closed => exact hlost rfl rfl
      | reset => exact hlost rfl rfl

end ReconnectConfig

/-- **Recovery after connection loss.**  With reconnection enabled and a callback set, the
client makes the attempts up to the first success, the first refusal or the
`max_attempts`-th failure and reports the end without success once, if and only if none of
these attempts meets a peer that closes or resets the connection before its CONNACK. -/
theorem connection_recovery (config : ReconnectConfig) (loss : ConnectFailure)
    (attempts : List Attempt) (henabled : config.enabled = true) :
    config.Recovers 0 attempts (config.recover true loss attempts) ↔
      ∀ attempt ∈ attempts.take (config.attemptsDue 0 attempts), attempt.isLost = false := by
  rw [← ReconnectConfig.connectWithRetry_recovers henabled]
  unfold ReconnectConfig.recover
  simp only [henabled]
  rfl

/-- Two failures of different kinds, then a success: three attempts and no report. -/
theorem connection_recovery_third_attempt :
    ({ maxAttempts := some 5 } : ReconnectConfig).Recovers 0 [.unreachable, .silent, .accepted]
        (({ maxAttempts := some 5 } : ReconnectConfig).recover true .disconnectedError
          [.unreachable, .silent, .accepted]) ∧
      ({ maxAttempts := some 5 } : ReconnectConfig).recover true .disconnectedError
          [.unreachable, .silent, .accepted] =
        { attempts := 3, progress := .connected, notifications := 0 } :=
  ⟨(connection_recovery { maxAttempts := some 5 } .disconnectedError
      [.unreachable, .silent, .accepted] rfl).mpr (by decide), by decide⟩

/-- The broker closes the connection before its CONNACK and would accept the next attempt:
the client makes no further attempt and reports nothing. -/
theorem closed_before_connack_ends_recovery :
    ({} : ReconnectConfig).recover true .disconnectedError [.closed, .accepted] =
        { attempts := 1, progress := .raised .disconnectedError, notifications := 0 } ∧
      ({} : ReconnectConfig).attemptsDue 0 [.closed, .accepted] = 2 ∧
      ¬ ({} : ReconnectConfig).Recovers 0 [.closed, .accepted]
        (({} : ReconnectConfig).recover true .disconnectedError [.closed, .accepted]) := by
  refine ⟨by decide, by decide, ?_⟩
  rintro ⟨hattempts, -⟩
  exact absurd hattempts (by decide)

end Zmqtt

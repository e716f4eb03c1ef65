/-
# What calls leave as it is

No step of a call changes the configuration or the directory, and none counts a session that
began, that ended or that failed. Nor does a timer that fires or a recording that ends.

Key definitions: `Service.Lasting`, `Service.lasting`.
Key theorems: `Service.lasting_of_step?`, `Service.lasting_of_runBackground?`.
-/
import DeviceRelay.Service.Steps

namespace DeviceRelay
namespace Service

/-- What is no matter of calls. -/
structure Lasting where
  config : Config
  directory : Directory
  /-- Sessions that began. -/
  sessions : Nat
  /-- Sessions that are counted as running. -/
  activeSessions : Nat
  /-- Sessions that failed. -/
  errors : Nat

/-- What of a service is no matter of calls. -/
def lasting (s : Service) : Lasting where
  config := s.config
  directory := s.directory
  sessions := s.metrics.sessions
  activeSessions := s.metrics.activeSessions
  errors := s.metrics.errors

variable {s : Service} {party : Party} {phase : Phase} {m : Move}

theorem lasting_checkRates (sender : PrincipalId) :
    (s.checkRates sender).1.lasting = s.lasting := by
  unfold checkRates
  split <;> rfl

theorem lasting_beginPublish (letter : Letter) :
    (s.beginPublish letter).service.lasting = s.lasting := by
  have hrates := s.lasting_checkRates letter.sender
  unfold beginPublish
  split <;> rename_i h <;> rw [h] at hrates
  · exact hrates
  · split
    · exact hrates
    · split
      · exact hrates
      · split <;> exact hrates

theorem lasting_conclude (id : RequestId) (device : PrincipalId) (state : PairingState) :
    (s.conclude id device state).service.lasting = s.lasting := by
  unfold conclude
  split
  · rfl
  · split <;> rfl

theorem lasting_begin (party : Party) (call : Call) :
    (s.begin party call).service.lasting = s.lasting := by
  cases call with
  | pair id requester device =>
    dsimp only [begin, beginPair]
    split
    · rfl
    · split <;> rfl
  | poll device timeout =>
    dsimp only [begin, beginPoll]
    split
    · rfl
    · split <;> rfl
  | respond device id accept =>
    dsimp only [begin, respond]
    split
    · rfl
    · split <;> split <;> rfl
  | owner device =>
    dsimp only [begin, ownerOf]
    split
    · rfl
    · split <;> rfl
  | devices user =>
    dsimp only [begin, devicesOf]
    split
    · rfl
    · split <;> rfl
  | unpair caller device =>
    dsimp only [begin, beginUnpair]
    split
    · rfl
    · rfl
    · split <;> rfl
  | publish sender recipient kind correlationId data => exact lasting_beginPublish _
  | consume recipient timeout => rfl

theorem lasting_endWait? {id : RequestId} {device : PrincipalId} {due : Nat}
    (h : s.endWait? id device due = some m) : m.service.lasting = s.lasting := by
  unfold endWait? at h
  split at h
  · split at h
    · split at h <;> obtain rfl := Option.some.inj h <;> exact lasting_conclude ..
    · cases h
  · obtain rfl := Option.some.inj h
    exact lasting_conclude ..

/-- **A step of a call leaves the settings and the counts of sessions as they are.** -/
theorem lasting_of_step? (h : s.step? party phase = some m) : m.service.lasting = s.lasting := by
  cases phase with
  | begins call =>
    obtain rfl := Option.some.inj h
    exact lasting_begin party call
  | sends id requester target =>
    obtain rfl := Option.some.inj h
    dsimp only [sendRequest]
    split <;> rfl
  | awaits id device due => exact lasting_endWait? h
  | lists | records =>
    obtain ⟨_, -, rfl⟩ := Option.map_eq_some_iff.mp h
    rfl
  | removes device =>
    obtain rfl := Option.some.inj h
    dsimp only [removePairing]
    split <;> rfl
  | compares letter senderOwner =>
    obtain rfl := Option.some.inj h
    dsimp only [compareOwners]
    split
    · rfl
    · split <;> rfl
  | queues letter =>
    obtain rfl := Option.some.inj h
    dsimp only [enqueue]
    split <;> rfl
  | consumes =>
    obtain ⟨⟨relay, consumed?⟩, -, rfl⟩ := Option.map_eq_some_iff.mp h
    cases consumed? <;> rfl

/-- What goes on by itself leaves them as they are, too. -/
theorem lasting_of_runBackground? {b : Background} {s' : Service}
    (h : s.runBackground? b = some s') : s'.lasting = s.lasting := by
  cases b with
  | timer id | write id =>
    obtain ⟨_, -, rfl⟩ := Option.map_eq_some_iff.mp h
    rfl

end Service
end DeviceRelay

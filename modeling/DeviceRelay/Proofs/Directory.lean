/-
# Whoever the directory finds is known under its own number

A principal enters the directory under its number, its username and its token. So one that is
found in any of the ways to look it up is found by its number, too.

Key definitions: `Directory.Own`.
Key theorems: `Directory.own_of_ofEntries`, `Directory.lookup?_of_authenticate`,
`Directory.lookup?_of_find?`.
-/
import DeviceRelay.DeviceRef

namespace DeviceRelay
namespace Directory

/-- Principals are known under their own numbers. -/
def Own (d : Directory) : Prop := ∀ id p, d.lookup? id = some p → p.id = id

variable {d d' : Directory} {p : Principal}

theorem insert_ok {entry : PrincipalEntry} (h : d.insert entry = .ok d') :
    d.refusal? entry = none ∧ d' =
      { principals := d.principals ++ [(entry.principal.id, entry.principal)]
        tokens := d.tokens ++ [(entry.token, entry.principal.id)]
        usernames := d.usernames ++ [(entry.principal.username, entry.principal.id)] } := by
  unfold insert at h
  split at h
  · cases h
  · rename_i hnone
    exact ⟨hnone, (Except.ok.inj h).symm⟩

theorem own_of_insert {entry : PrincipalEntry} (hd : d.Own) (h : d.insert entry = .ok d') :
    d'.Own := by
  obtain ⟨-, rfl⟩ := insert_ok h
  intro id p hp
  have hadded : (d.lookup? id).or ([(entry.principal.id, entry.principal)].lookup id) = some p :=
    List.lookup_append.symm.trans hp
  rcases Option.or_eq_some_iff.mp hadded with hold | ⟨-, hnew⟩
  · exact hd id p hold
  · obtain ⟨_, _, hsingle, -⟩ := List.lookup_eq_some_iff.mp hnew
    have hmem : (id, p) ∈ [(entry.principal.id, entry.principal)] := by simp [hsingle]
    obtain ⟨rfl, rfl⟩ := Prod.mk.inj (List.mem_singleton.mp hmem)
    rfl

/-- **The principals of a configuration are known under their own numbers.** -/
theorem own_of_ofEntries {entries : List PrincipalEntry} (h : ofEntries entries = .ok d) :
    d.Own := by
  suffices key : ∀ start : Directory, start.Own → entries.foldlM insert start = .ok d → d.Own from
    key {} (fun _ _ hp => by cases hp) h
  clear h
  induction entries with
  | nil =>
    intro start hstart hd
    obtain rfl := Except.ok.inj hd
    exact hstart
  | cons entry rest ih =>
    intro start hstart hd
    rw [List.foldlM_cons] at hd
    cases hinsert : start.insert entry with
    | error e => rw [hinsert] at hd; cases hd
    | ok next =>
      rw [hinsert] at hd
      exact ih next (own_of_insert hstart hinsert) hd

theorem Own.lookup?_self (hd : d.Own) {id : PrincipalId} (h : d.lookup? id = some p) :
    d.lookup? p.id = some p := by
  rw [hd id p h, h]

/-- **Whose token is presented is a known principal.** -/
theorem lookup?_of_authenticate (hd : d.Own) {token : String} (h : d.authenticate token = .ok p) :
    d.lookup? p.id = some p := by
  unfold authenticate at h
  split at h
  · rename_i found
    obtain rfl := Except.ok.inj h
    obtain ⟨id, -, hid⟩ := Option.bind_eq_some_iff.mp found
    exact hd.lookup?_self hid
  · cases h

/-- **What a pairing request is for is a known principal.** -/
theorem lookup?_of_find? (hd : d.Own) {device : DeviceRef} (h : device.find? d = some p) :
    d.lookup? p.id = some p := by
  cases device with
  | number id => exact hd.lookup?_self h
  | username name =>
    obtain ⟨id, -, hid⟩ := Option.bind_eq_some_iff.mp h
    exact hd.lookup?_self hid

end Directory
end DeviceRelay

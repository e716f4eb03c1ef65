/-
# Whoever enters the directory is alone with its number, its username and its token

All three must be new, and nothing is written before all three were checked. So a directory is
at any time the list of the entries that were let in, told apart by each of the three, and an
attempt to enter that is refused leaves the directory as it was. Written one after the other, the
three maps never overwrite anything.

Key definitions: `Directory.Apart`, `Directory.New`, `Directory.holding`, `Directory.enter`,
`Directory.Reached`, `Directory.Finds`, `Directory.Consistent`, `Directory.Attempted`,
`Directory.Admission`.
Key theorems: `Directory.refusal?_eq_none_iff`, `Directory.foldlM_insert_iff`,
`Directory.attempt_holding`, `Directory.holding_of_reached`, `Directory.admission_of_entries`.
-/
import DeviceRelay.Proofs.Directory
import DeviceRelay.Proofs.Keyed
import Mathlib.Data.List.Induction

namespace DeviceRelay
namespace Directory

/-- No two entries share a number, a username or a token. -/
structure Apart (entries : List PrincipalEntry) : Prop where
  ids : (entries.map (·.principal.id)).Nodup
  usernames : (entries.map (·.principal.username)).Nodup
  tokens : (entries.map (·.token)).Nodup

/-- An entry shares neither number nor username nor token with any of the others. -/
structure New (entries : List PrincipalEntry) (entry : PrincipalEntry) : Prop where
  id : entry.principal.id ∉ entries.map (·.principal.id)
  username : entry.principal.username ∉ entries.map (·.principal.username)
  token : entry.token ∉ entries.map (·.token)

/-- The directory that holds some entries and nothing else. -/
def holding (entries : List PrincipalEntry) : Directory where
  principals := entries.map fun e => (e.principal.id, e.principal)
  tokens := entries.map fun e => (e.token, e.principal.id)
  usernames := entries.map fun e => (e.principal.username, e.principal.id)

variable {d d' : Directory} {entries rest : List PrincipalEntry} {entry : PrincipalEntry}

theorem apart_nil : Apart [] := ⟨List.nodup_nil, List.nodup_nil, List.nodup_nil⟩

theorem Apart.left (h : Apart (entries ++ rest)) : Apart entries := by
  have hkeys {κ : Type} (key : PrincipalEntry → κ) :
      (entries.map key).Sublist ((entries ++ rest).map key) :=
    (List.sublist_append_left entries rest).map key
  exact ⟨h.ids.sublist (hkeys _), h.usernames.sublist (hkeys _), h.tokens.sublist (hkeys _)⟩

theorem apart_concat_iff : Apart (entries ++ [entry]) ↔ Apart entries ∧ New entries entry := by
  have hone {κ : Type} (key : PrincipalEntry → κ) : ((entries ++ [entry]).map key).Nodup ↔
      (entries.map key).Nodup ∧ key entry ∉ entries.map key := by
    rw [List.map_append, List.map_singleton, ← List.concat_eq_append, List.nodup_concat]
    exact and_comm
  constructor
  · rintro ⟨ids, usernames, tokens⟩
    obtain ⟨ids, id⟩ := (hone _).mp ids
    obtain ⟨usernames, username⟩ := (hone _).mp usernames
    obtain ⟨tokens, token⟩ := (hone _).mp tokens
    exact ⟨⟨ids, usernames, tokens⟩, ⟨id, username, token⟩⟩
  · rintro ⟨apart, new⟩
    exact ⟨(hone _).mpr ⟨apart.ids, new.id⟩, (hone _).mpr ⟨apart.usernames, new.username⟩,
      (hone _).mpr ⟨apart.tokens, new.token⟩⟩

/-! ### One entry -/

theorem keys_principals : (holding entries).principals.map (·.1) = entries.map (·.principal.id) :=
  List.map_map

theorem keys_usernames : (holding entries).usernames.map (·.1) = entries.map (·.principal.username) :=
  List.map_map

theorem keys_tokens : (holding entries).tokens.map (·.1) = entries.map (·.token) := List.map_map

/-- **Nothing but what is shared keeps an entry out.** -/
theorem refusal?_eq_none_iff : (holding entries).refusal? entry = none ↔ New entries entry := by
  have hid := Keyed.lookup_eq_none_iff (holding entries).principals entry.principal.id
  have husername := Keyed.lookup_eq_none_iff (holding entries).usernames entry.principal.username
  have htoken := Keyed.lookup_eq_none_iff (holding entries).tokens entry.token
  rw [keys_principals] at hid
  rw [keys_usernames] at husername
  rw [keys_tokens] at htoken
  constructor
  · intro h
    unfold refusal? at h
    split at h
    · cases h
    · rename_i h1
      split at h
      · cases h
      · rename_i h2
        split at h
        · cases h
        · rename_i h3
          exact ⟨hid.mp (Option.not_isSome_iff_eq_none.mp h1),
            husername.mp (Option.not_isSome_iff_eq_none.mp h2),
            htoken.mp (Option.not_isSome_iff_eq_none.mp h3)⟩
  · rintro ⟨id, username, token⟩
    unfold refusal?
    rw [hid.mpr id, husername.mpr username, htoken.mpr token]
    rfl

theorem insert_holding_iff :
    (holding entries).insert entry = .ok d ↔ New entries entry ∧ d = holding (entries ++ [entry]) := by
  have hgrown : holding (entries ++ [entry]) =
      { principals := (holding entries).principals ++ [(entry.principal.id, entry.principal)]
        tokens := (holding entries).tokens ++ [(entry.token, entry.principal.id)]
        usernames :=
          (holding entries).usernames ++ [(entry.principal.username, entry.principal.id)] } := by
    simp [holding]
  rw [hgrown, ← refusal?_eq_none_iff]
  refine ⟨insert_ok, ?_⟩
  rintro ⟨accepted, rfl⟩
  unfold insert
  rw [accepted]

/-- **Entries enter one after the other as long as each is new.** -/
theorem foldlM_insert_iff (apart : Apart entries) :
    rest.foldlM insert (holding entries) = .ok d ↔
      Apart (entries ++ rest) ∧ d = holding (entries ++ rest) := by
  induction rest generalizing entries with
  | nil =>
    rw [List.append_nil]
    refine ⟨fun h => ⟨apart, (Except.ok.inj h).symm⟩, ?_⟩
    rintro ⟨-, rfl⟩
    rfl
  | cons entry rest ih =>
    rw [List.foldlM_cons, ← List.singleton_append, ← List.append_assoc]
    by_cases new : New entries entry
    · rw [insert_holding_iff.mpr ⟨new, rfl⟩]
      exact ih (apart_concat_iff.mpr ⟨apart, new⟩)
    · refine ⟨fun h => ?_, fun ⟨h, _⟩ => ?_⟩
      · cases hinsert : (holding entries).insert entry with
        | error cause => rw [hinsert] at h; cases h
        | ok next => exact absurd (insert_holding_iff.mp hinsert).1 new
      · exact absurd (apart_concat_iff.mp h.left).2 new

theorem ofEntries_eq_ok_iff : ofEntries entries = .ok d ↔ Apart entries ∧ d = holding entries :=
  foldlM_insert_iff apart_nil

/-! ### Attempts -/

/-- Writes an entry into one map after the other. -/
def store (entry : PrincipalEntry) : ExceptT ConfigError (StateM Directory) Unit := do
  let p := entry.principal
  modify fun d => { d with tokens := Registry.put entry.token p.id d.tokens }
  modify fun d => { d with usernames := Registry.put p.username p.id d.usernames }
  modify fun d => { d with principals := Registry.put p.id p d.principals }

/-- To enter step by step: first the checks, then the maps. What was written before a failure
would stay. -/
def enter (entry : PrincipalEntry) : ExceptT ConfigError (StateM Directory) Unit := do
  match (← get).refusal? entry with
  | some reason => throw (.invalid reason)
  | none => store entry

/-- How an attempt to enter a directory ends, and the directory afterwards. -/
def attempt (d : Directory) (entry : PrincipalEntry) : Except ConfigError Unit × Directory :=
  (enter entry).run.run d

theorem attempt_eq (d : Directory) (entry : PrincipalEntry) :
    d.attempt entry = match d.refusal? entry with
      | some reason => (.error (.invalid reason), d)
      | none => (store entry).run.run d := by
  show (ExceptT.run (match d.refusal? entry with
    | some reason => (throw (.invalid reason) : ExceptT ConfigError (StateM Directory) Unit)
    | none => store entry)).run d = _
  cases d.refusal? entry <;> rfl

/-- What is written under new keys comes last in each map. -/
theorem store_holding (new : New entries entry) :
    (store entry).run.run (holding entries) = (.ok (), holding (entries ++ [entry])) := by
  have hid := new.id
  have husername := new.username
  have htoken := new.token
  rw [← keys_principals] at hid
  rw [← keys_usernames] at husername
  rw [← keys_tokens] at htoken
  show (Except.ok (), Directory.mk (Registry.put entry.principal.id entry.principal _)
    (Registry.put entry.token entry.principal.id _)
    (Registry.put entry.principal.username entry.principal.id _)) = _
  rw [Keyed.put_of_not_mem _ hid, Keyed.put_of_not_mem _ husername, Keyed.put_of_not_mem _ htoken]
  simp [holding]

/-- **An attempt enters what is new, and leaves the directory alone otherwise.** -/
theorem attempt_holding (entries : List PrincipalEntry) (entry : PrincipalEntry) :
    (New entries entry ∧ (holding entries).attempt entry = (.ok (), holding (entries ++ [entry]))) ∨
      (¬ New entries entry ∧ ∃ cause, (holding entries).insert entry = .error cause ∧
        (holding entries).attempt entry = (.error cause, holding entries)) := by
  rw [attempt_eq, ← refusal?_eq_none_iff]
  cases hrefusal : (holding entries).refusal? entry with
  | none => exact .inl ⟨rfl, store_holding (refusal?_eq_none_iff.mp hrefusal)⟩
  | some reason =>
    refine .inr ⟨nofun, .invalid reason, ?_, rfl⟩
    unfold insert
    rw [hrefusal]

/-- The directories to which attempts lead, whether they succeed or not. -/
inductive Reached : Directory → Prop where
  | empty : Reached {}
  | attempt {d : Directory} (entry : PrincipalEntry) (before : Reached d) :
    Reached (d.attempt entry).2

/-- **A directory holds the entries that were let in**, all of them apart. -/
theorem holding_of_reached (h : Reached d) : ∃ entries, Apart entries ∧ d = holding entries := by
  induction h with
  | empty => exact ⟨[], apart_nil, rfl⟩
  | attempt entry _ ih =>
    obtain ⟨entries, apart, rfl⟩ := ih
    obtain ⟨new, hattempt⟩ | ⟨-, cause, -, hattempt⟩ := attempt_holding entries entry
    · exact ⟨_, apart_concat_iff.mpr ⟨apart, new⟩, by rw [hattempt]⟩
    · exact ⟨entries, apart, by rw [hattempt]⟩

/-- The directory of a configuration is reached by attempts that all succeed. -/
theorem reached_holding (apart : Apart entries) : Reached (holding entries) := by
  induction entries using List.reverseRecOn with
  | nil => exact .empty
  | append_singleton entries entry ih =>
    obtain ⟨apart, new⟩ := apart_concat_iff.mp apart
    have hreached := (ih apart).attempt entry
    obtain ⟨-, hattempt⟩ | ⟨old, -⟩ := attempt_holding entries entry
    · rwa [hattempt] at hreached
    · exact absurd new old

/-! ### What is found -/

/-- Each entry is found by its token, its number and its username, and nothing else is found. -/
structure Finds (d : Directory) (entries : List PrincipalEntry) : Prop where
  token : ∀ e ∈ entries, d.authenticate e.token = .ok e.principal
  noToken : ∀ token, (∀ e ∈ entries, e.token ≠ token) → d.authenticate token = .error .unauthorized
  id : ∀ e ∈ entries, d.lookup? e.principal.id = some e.principal
  noId : ∀ id, (∀ e ∈ entries, e.principal.id ≠ id) → d.lookup? id = none
  username : ∀ e ∈ entries, d.findByUsername? e.principal.username = some e.principal
  noUsername : ∀ username, (∀ e ∈ entries, e.principal.username ≠ username) →
    d.findByUsername? username = none
  size : d.size = entries.length

/-- What is told apart by a key is looked up by it. -/
theorem lookup_map {κ β : Type} [DecidableEq κ] {key : PrincipalEntry → κ} {f : PrincipalEntry → β}
    (apart : (entries.map key).Nodup) (h : entry ∈ entries) :
    (entries.map fun e => (key e, f e)).lookup (key entry) = some (f entry) := by
  refine Keyed.lookup_of_mem ?_ (List.mem_map_of_mem h)
  rw [List.map_map]
  exact apart

theorem lookup_map_eq_none {κ β : Type} [DecidableEq κ] {key : PrincipalEntry → κ}
    {f : PrincipalEntry → β} {k : κ} (h : ∀ e ∈ entries, key e ≠ k) :
    (entries.map fun e => (key e, f e)).lookup k = none := by
  rw [Keyed.lookup_eq_none_iff, List.map_map]
  rintro hk
  obtain ⟨e, he, rfl⟩ := List.mem_map.mp hk
  exact h e he rfl

theorem exists_of_lookup_map {κ β : Type} [DecidableEq κ] {key : PrincipalEntry → κ}
    {f : PrincipalEntry → β} {k : κ} {b : β}
    (h : (entries.map fun e => (key e, f e)).lookup k = some b) :
    ∃ e ∈ entries, key e = k ∧ f e = b := by
  obtain ⟨e, he, heq⟩ := List.mem_map.mp (Keyed.mem_of_lookup h)
  exact ⟨e, he, Prod.mk.inj heq⟩

theorem finds_holding (apart : Apart entries) : (holding entries).Finds entries := by
  have hid : ∀ e ∈ entries, (holding entries).lookup? e.principal.id = some e.principal :=
    fun e he => lookup_map apart.ids he
  constructor
  case token =>
    intro e he
    have htoken : (holding entries).tokens.lookup e.token = some e.principal.id :=
      lookup_map apart.tokens he
    unfold authenticate
    rw [htoken, Option.bind_some, hid e he]
  case noToken =>
    intro token hnone
    have htoken : (holding entries).tokens.lookup token = none := lookup_map_eq_none hnone
    unfold authenticate
    rw [htoken, Option.bind_none]
  case id => exact hid
  case noId => exact fun id hnone => lookup_map_eq_none hnone
  case username =>
    intro e he
    have husername : (holding entries).usernames.lookup e.principal.username = some e.principal.id :=
      lookup_map apart.usernames he
    unfold findByUsername?
    rw [husername, Option.bind_some, hid e he]
  case noUsername =>
    intro username hnone
    have husername : (holding entries).usernames.lookup username = none := lookup_map_eq_none hnone
    unfold findByUsername?
    rw [husername, Option.bind_none]
  case size => exact List.length_map _

/-- The three maps agree: tokens, usernames and known principals belong to each other one to
one. -/
structure Consistent (d : Directory) : Prop where
  /-- A token belongs to one known principal, which it authenticates. -/
  token : ∀ token id, d.tokens.lookup token = some id →
    ∃ p, d.lookup? id = some p ∧ p.id = id ∧ d.authenticate token = .ok p
  /-- A username belongs to one known principal, whose own it is. -/
  username : ∀ username id, d.usernames.lookup username = some id →
    ∃ p, d.lookup? id = some p ∧ p.id = id ∧ p.username = username
  /-- A known principal has one token and one username. -/
  own : ∀ id p, d.lookup? id = some p → p.id = id ∧
    (∃! token, d.tokens.lookup token = some id) ∧
    ∃! username, d.usernames.lookup username = some id
  /-- Each map has one entry for each known principal, and no two for one key. -/
  sizes : d.tokens.length = d.size ∧ d.usernames.length = d.size ∧
    (d.principals.map (·.1)).Nodup ∧ (d.tokens.map (·.1)).Nodup ∧ (d.usernames.map (·.1)).Nodup

theorem consistent_holding (apart : Apart entries) : (holding entries).Consistent := by
  have finds := finds_holding apart
  constructor
  case token =>
    intro token id h
    obtain ⟨e, he, rfl, rfl⟩ := exists_of_lookup_map h
    exact ⟨e.principal, finds.id e he, rfl, finds.token e he⟩
  case username =>
    intro username id h
    obtain ⟨e, he, rfl, rfl⟩ := exists_of_lookup_map h
    exact ⟨e.principal, finds.id e he, rfl, rfl⟩
  case own =>
    intro id p h
    obtain ⟨e, he, rfl, rfl⟩ := exists_of_lookup_map h
    refine ⟨rfl, ⟨e.token, lookup_map apart.tokens he, fun token h => ?_⟩,
      ⟨e.principal.username, lookup_map apart.usernames he, fun username h => ?_⟩⟩
    · obtain ⟨e', he', rfl, hid⟩ := exists_of_lookup_map h
      rw [List.inj_on_of_nodup_map apart.ids he' he hid]
    · obtain ⟨e', he', rfl, hid⟩ := exists_of_lookup_map h
      rw [List.inj_on_of_nodup_map apart.ids he' he hid]
  case sizes =>
    rw [keys_principals, keys_tokens, keys_usernames]
    simp only [size, holding, List.length_map]
    exact ⟨trivial, trivial, apart.ids, apart.tokens, apart.usernames⟩

/-! ### The directory of a configuration and what follows -/

/-- What an attempt does to a directory. -/
structure Attempted (d : Directory) (entry : PrincipalEntry) : Prop where
  /-- It succeeds just if number, username and token are unknown. -/
  lets : (d.attempt entry).1 = .ok () ↔ d.lookup? entry.principal.id = none ∧
    d.usernames.lookup entry.principal.username = none ∧ d.tokens.lookup entry.token = none
  /-- If it succeeds, the directory is the one with the entry. -/
  entered : (d.attempt entry).1 = .ok () → d.insert entry = .ok (d.attempt entry).2
  /-- If it fails, the directory stays as it was, whatever is asked of it. -/
  refused : ∀ cause, (d.attempt entry).1 = .error cause →
    d.insert entry = .error cause ∧ (d.attempt entry).2 = d

/-- What holds of the directory of some entries, and of all directories. -/
structure Admission (entries : List PrincipalEntry) : Prop where
  /-- The entries have a directory if they are told apart by all three, and only then. -/
  accepted : (∃ d, ofEntries entries = .ok d) ↔ Apart entries
  /-- It finds them and nothing else, and attempts may have led to it. -/
  finds : ∀ d, ofEntries entries = .ok d → d.Finds entries ∧ Reached d
  consistent : ∀ d, Reached d → d.Consistent
  attempted : ∀ d, Reached d → ∀ entry, d.Attempted entry

theorem attempted_holding (entries : List PrincipalEntry) (entry : PrincipalEntry) :
    (holding entries).Attempted entry := by
  have hnew : New entries entry ↔ (holding entries).lookup? entry.principal.id = none ∧
      (holding entries).usernames.lookup entry.principal.username = none ∧
      (holding entries).tokens.lookup entry.token = none := by
    unfold lookup?
    rw [Keyed.lookup_eq_none_iff, Keyed.lookup_eq_none_iff, Keyed.lookup_eq_none_iff,
      keys_principals, keys_usernames, keys_tokens]
    exact ⟨fun ⟨id, username, token⟩ => ⟨id, username, token⟩,
      fun ⟨id, username, token⟩ => ⟨id, username, token⟩⟩
  obtain ⟨new, hattempt⟩ | ⟨old, cause, hinsert, hattempt⟩ := attempt_holding entries entry
  · refine ⟨?_, ?_, ?_⟩ <;> rw [hattempt]
    · exact ⟨fun _ => hnew.mp new, fun _ => rfl⟩
    · exact fun _ => insert_holding_iff.mpr ⟨new, rfl⟩
    · exact nofun
  · refine ⟨?_, ?_, ?_⟩ <;> rw [hattempt]
    · exact ⟨nofun, fun h => absurd (hnew.mpr h) old⟩
    · exact nofun
    · rintro _ ⟨⟩
      exact ⟨hinsert, rfl⟩

/-- **Entries have a directory if no two share a number, a username or a token**, which finds
each of them by its own; and no attempt, successful or not, ever confuses two. -/
theorem admission_of_entries (entries : List PrincipalEntry) : Admission entries := by
  constructor
  case accepted =>
    refine ⟨fun ⟨d, h⟩ => (ofEntries_eq_ok_iff.mp h).1, fun apart => ?_⟩
    exact ⟨holding entries, ofEntries_eq_ok_iff.mpr ⟨apart, rfl⟩⟩
  case finds =>
    intro d h
    obtain ⟨apart, rfl⟩ := ofEntries_eq_ok_iff.mp h
    exact ⟨finds_holding apart, reached_holding apart⟩
  case consistent =>
    intro d h
    obtain ⟨entries, apart, rfl⟩ := holding_of_reached h
    exact consistent_holding apart
  case attempted =>
    intro d h entry
    obtain ⟨entries, -, rfl⟩ := holding_of_reached h
    exact attempted_holding entries entry

/-- Two entries have a directory, which a third that presents a known token does not enter. -/
theorem admission_of_two :
    let alice : PrincipalEntry := ⟨⟨.ofNat 1, "alice", false⟩, "t-alice"⟩
    let phone : PrincipalEntry := ⟨⟨.ofNat 2, "phone", true⟩, "t-phone"⟩
    let other : PrincipalEntry := ⟨⟨.ofNat 3, "other", true⟩, "t-phone"⟩
    ∃ d, ofEntries [alice, phone] = .ok d ∧ d.authenticate "t-phone" = .ok phone.principal ∧
      (∃ cause, d.insert other = .error cause) ∧ (d.attempt other).2 = d := by
  intro alice phone other
  have admission := admission_of_entries [alice, phone]
  obtain ⟨d, hd⟩ := admission.accepted.mpr ⟨by decide, by decide, by decide⟩
  obtain ⟨finds, reached⟩ := admission.finds d hd
  have attempted := admission.attempted d reached other
  have htoken : (d.attempt other).1 ≠ .ok () := by
    intro hok
    have hunknown := (attempted.lets.mp hok).2.2
    obtain ⟨-, rfl⟩ := ofEntries_eq_ok_iff.mp hd
    cases hunknown
  cases hended : (d.attempt other).1 with
  | ok => exact absurd hended htoken
  | error cause =>
    obtain ⟨hinsert, hsame⟩ := attempted.refused cause hended
    exact ⟨d, hd, finds.token phone (by simp), ⟨cause, hinsert⟩, hsame⟩

end Directory
end DeviceRelay

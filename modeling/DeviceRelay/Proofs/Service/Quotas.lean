/-
# A refused letter still takes a cell from the common bucket

A letter takes a cell from the common bucket before its sender's quota is looked at. So a letter
that is refused for the quota of its sender takes this cell all the same. If all such letters of
one sender are left out of a sequence, then each of them leaves a cell to a later letter that the
common bucket refused. These letters get further than before, the first ones that were refused
so. Everything else ends as it did. As long as the common bucket lasts, nobody is
affected by the refused letters of another.

Key definitions: `Service.posts`, `Service.exceeds`, `Service.kept`, `Service.excess`,
`Service.Ahead`, `Service.Compared`.
Key theorems: `Service.same_iff_of_ahead`, `Service.kept_global_iff`,
`Service.compared_of_posts`, `Service.refused_for_another`.
-/
import DeviceRelay.Proofs.RateLimits
import DeviceRelay.Proofs.Service.Posting

namespace DeviceRelay

namespace Service

/-! ### One letter -/

/-- Whether a result is the refusal for one of the rates. -/
def isRefusal (rate : RateLimitError) : Except Error Unit → Bool
  | .error (.rateLimited reason) => reason = rate.message
  | _ => false

variable {s s' : Service} {letter : Letter}

theorem isRefusal_iff (rate : RateLimitError) (result : Except Error Unit) :
    isRefusal rate result = true ↔ result = .error (.rateLimited rate.message) := by
  unfold isRefusal
  split
  · simp
  · rename_i hother
    simp only [Bool.false_eq_true, false_iff]
    exact hother _

theorem isRefusal_fate (rate : RateLimitError) (s : Service) (letter : Letter) :
    isRefusal rate (s.fate letter) = false := by
  have hreach : isRefusal rate (s.reach letter) = false := by
    unfold reach
    split
    · rfl
    · split
      · rfl
      · unfold PairingStore.read
        split
        · rename_i heq
          split at heq <;> cases heq
          rfl
        · split <;> rfl
  unfold fate
  split
  · rename_i e he
    exact he ▸ hreach
  · split <;> rfl

/-- A letter needs a cell for all and one of its sender. -/
theorem post_result_eq (s : Service) (letter : Letter) : (s.post letter).2 =
    if s.limits.globalLeft = 0 then .error (.rateLimited RateLimitError.global.message)
    else if s.limits.leftFor letter.sender = 0 then
      .error (.rateLimited RateLimitError.sender.message)
    else s.fate letter := by
  rw [post_result, RateLimits.takeCells_result]
  by_cases hglobal : s.limits.globalLeft = 0
  · simp only [if_pos hglobal]
  · by_cases hsender : s.limits.leftFor letter.sender = 0
    · simp only [if_neg hglobal, if_pos hsender]
    · simp only [if_neg hglobal, if_neg hsender]

/-- The common rate refuses a letter if there is no cell for all. -/
theorem isRefusal_global_post (s : Service) (letter : Letter) :
    isRefusal .global (s.post letter).2 = true ↔ s.limits.globalLeft = 0 := by
  rw [post_result_eq]
  by_cases hglobal : s.limits.globalLeft = 0
  · simp [hglobal, isRefusal]
  · by_cases hleft : s.limits.leftFor letter.sender = 0
    · simp [hglobal, hleft, isRefusal, RateLimitError.message]
    · simp [hglobal, hleft, isRefusal_fate]

/-- The quota of its sender refuses a letter if only that has no cell. -/
theorem isRefusal_sender_post (s : Service) (letter : Letter) :
    isRefusal .sender (s.post letter).2 = true ↔
      s.limits.globalLeft ≠ 0 ∧ s.limits.leftFor letter.sender = 0 := by
  rw [post_result_eq]
  by_cases hglobal : s.limits.globalLeft = 0
  · simp [hglobal, isRefusal, RateLimitError.message]
  · by_cases hleft : s.limits.leftFor letter.sender = 0
    · simp [hglobal, hleft, isRefusal]
    · simp [hglobal, hleft, isRefusal_fate]

/-! ### Many letters -/

/-- Posts letters one after another, and tells of each how that ended. -/
def posts (s : Service) : List Letter → List (Letter × Except Error Unit)
  | [] => []
  | letter :: rest => (letter, (s.post letter).2) :: (s.post letter).1.posts rest

/-- A letter was refused because its sender had used up its quota. -/
def exceeds (sender : PrincipalId) (x : Letter × Except Error Unit) : Bool :=
  x.1.sender = sender && isRefusal .sender x.2

/-- The letters that were not refused for the quota of one sender, with their results. -/
def kept (s : Service) (sender : PrincipalId) (letters : List Letter) :
    List (Letter × Except Error Unit) :=
  (s.posts letters).filter fun x => !exceeds sender x

/-- How many letters were refused for the quota of one sender. -/
def excess (s : Service) (sender : PrincipalId) (letters : List Letter) : Nat :=
  (s.posts letters).countP (exceeds sender)

/-- A service with more cells in the common bucket, and equal otherwise as far as results are
concerned. -/
structure Ahead (s s' : Service) (cells : Nat) : Prop where
  common : s'.limits.globalLeft = s.limits.globalLeft + cells
  senders : ∀ q, s'.limits.leftFor q = s.limits.leftFor q
  fates : ∀ letter, s'.fate letter = s.fate letter

/-- How letters end once those that were refused for the quota of one sender are left out. -/
structure Compared (s : Service) (sender : PrincipalId) (letters : List Letter) : Prop where
  /-- A letter that the common bucket refused ends differently if it now finds a cell there. -/
  same_iff : ∀ (i : Nat) (x : Letter × Except Error Unit), (s.kept sender letters)[i]? = some x →
    ((s.posts ((s.kept sender letters).map (·.1)))[i]? = some x ↔
      isRefusal .global x.2 = false ∨ s.limits.globalLeft ≤ i)
  /-- The letters that are left out had taken cells there. -/
  refused_iff : ∀ (i : Nat) (x : Letter × Except Error Unit),
    (s.kept sender letters)[i]? = some x →
    (isRefusal .global x.2 = true ↔ s.limits.globalLeft ≤ i + s.excess sender letters)

/-! ### Without the refused letters -/

theorem kept_cons (s : Service) (sender : PrincipalId) (letter : Letter) (rest : List Letter) :
    s.kept sender (letter :: rest) =
      if exceeds sender (letter, (s.post letter).2) then (s.post letter).1.kept sender rest
      else (letter, (s.post letter).2) :: (s.post letter).1.kept sender rest := by
  unfold kept
  rw [posts, List.filter_cons]
  cases exceeds sender (letter, (s.post letter).2) <;> rfl

theorem excess_cons (s : Service) (sender : PrincipalId) (letter : Letter) (rest : List Letter) :
    s.excess sender (letter :: rest) = (s.post letter).1.excess sender rest +
      if exceeds sender (letter, (s.post letter).2) then 1 else 0 := by
  unfold excess
  rw [posts, List.countP_cons]

theorem globalLeft_post (s : Service) (letter : Letter) :
    (s.post letter).1.limits.globalLeft = s.limits.globalLeft - 1 := by
  rw [limits_post, RateLimits.globalLeft_takeCells]

/-- A letter is refused for the quota of its sender if that has no cell, and the common bucket
has one. -/
theorem exceeds_post (s : Service) (sender : PrincipalId) (letter : Letter) :
    exceeds sender (letter, (s.post letter).2) = true ↔
      letter.sender = sender ∧ s.limits.globalLeft ≠ 0 ∧ s.limits.leftFor sender = 0 := by
  unfold exceeds
  rw [Bool.and_eq_true, decide_eq_true_iff, isRefusal_sender_post]
  exact and_congr_right fun hsender => by rw [hsender]

/-- The first letters are refused for other reasons, as long as the common bucket lasts. -/
theorem global_iff (letters : List Letter) : ∀ (s : Service) (i : Nat)
    (x : Letter × Except Error Unit), (s.posts letters)[i]? = some x →
      (isRefusal .global x.2 = true ↔ s.limits.globalLeft ≤ i) := by
  induction letters with
  | nil => exact fun s i x hx => by simp [posts] at hx
  | cons letter rest ih =>
    intro s i x hx
    cases i with
    | zero =>
      obtain rfl := Option.some.inj hx
      rw [isRefusal_global_post, Nat.le_zero]
    | succ i =>
      rw [ih _ i x hx, globalLeft_post]
      omega

theorem map_fst_posts (letters : List Letter) : ∀ s : Service,
    (s.posts letters).map (·.1) = letters := by
  induction letters with
  | nil => exact fun _ => rfl
  | cons letter rest ih => exact fun s => congrArg (letter :: ·) (ih _)

/-- The letters that come too late for the common bucket are refused for it. -/
theorem refused_at_iff (s : Service) {letters : List Letter} {i : Nat}
    (hi : letters[i]? = some letter) :
    (s.posts letters)[i]? = some (letter, .error (.rateLimited RateLimitError.global.message)) ↔
      s.limits.globalLeft ≤ i := by
  have hletter : ((s.posts letters)[i]?).map (·.1) = some letter := by
    rw [← List.getElem?_map, map_fst_posts, hi]
  obtain ⟨⟨_, result⟩, hx, rfl⟩ := Option.map_eq_some_iff.mp hletter
  rw [← global_iff letters s i _ hx, isRefusal_iff, hx, Option.some_inj, Prod.mk.injEq]
  exact and_iff_right rfl

/-- As many letters at most exceed a quota as the common bucket has cells. -/
theorem excess_le (sender : PrincipalId) (letters : List Letter) : ∀ s : Service,
    s.excess sender letters ≤ s.limits.globalLeft := by
  induction letters with
  | nil => exact fun _ => Nat.zero_le _
  | cons letter rest ih =>
    intro s
    have hrest := ih (s.post letter).1
    rw [globalLeft_post] at hrest
    rw [excess_cons]
    split
    · rename_i hexceeds
      have hglobal := ((exceeds_post s sender letter).mp hexceeds).2.1
      omega
    · omega

theorem Ahead.post {cells : Nat} (A : Ahead s s' cells) (hglobal : s.limits.globalLeft ≠ 0)
    (letter : Letter) : Ahead (s.post letter).1 (s'.post letter).1 cells where
  common := by
    rw [globalLeft_post, globalLeft_post, A.common]
    omega
  senders q := by
    have hglobal' : s'.limits.globalLeft ≠ 0 := by
      rw [A.common]
      omega
    rw [limits_post, limits_post, RateLimits.leftFor_takeCells, RateLimits.leftFor_takeCells,
      A.senders]
    simp only [ne_eq, hglobal, hglobal']
  fates other := by rw [fate_post, fate_post, A.fates]

/-- To leave a letter out that is refused for the quota of its sender adds to the lead. -/
theorem Ahead.skip {cells : Nat} (A : Ahead s s' cells) {sender : PrincipalId}
    (hexceeds : exceeds sender (letter, (s.post letter).2) = true) :
    Ahead (s.post letter).1 s' (cells + 1) := by
  obtain ⟨rfl, hglobal, hleft⟩ := (exceeds_post s sender letter).mp hexceeds
  constructor
  case common =>
    rw [globalLeft_post, A.common]
    omega
  case senders =>
    intro q
    rw [limits_post, RateLimits.leftFor_takeCells, A.senders]
    split
    · rename_i hq
      rw [hq.2, hleft]
    · rfl
  case fates => exact fun other => by rw [fate_post, A.fates]

/-- With the same cells for the sender a letter ends in the same way, if there are any for
all. -/
theorem Ahead.result {cells : Nat} (A : Ahead s s' cells) (hglobal : s.limits.globalLeft ≠ 0)
    (letter : Letter) : (s'.post letter).2 = (s.post letter).2 := by
  have hglobal' : s'.limits.globalLeft ≠ 0 := by
    rw [A.common]
    omega
  rw [post_result_eq, post_result_eq, if_neg hglobal, if_neg hglobal', A.senders, A.fates]

/-- Nothing is left out once the common bucket is empty: all letters are refused for it. -/
theorem kept_of_empty (sender : PrincipalId) (letters : List Letter) : ∀ s : Service,
    s.limits.globalLeft = 0 → s.kept sender letters = letters.map fun letter =>
      (letter, .error (.rateLimited RateLimitError.global.message)) := by
  induction letters with
  | nil => exact fun _ _ => rfl
  | cons letter rest ih =>
    intro s hglobal
    have hrest := ih (s.post letter).1 (by rw [globalLeft_post, hglobal])
    have hresult : (s.post letter).2 = .error (.rateLimited RateLimitError.global.message) := by
      rw [post_result_eq, if_pos hglobal]
    have hkept : ¬ exceeds sender (letter, (s.post letter).2) = true := by
      rw [exceeds_post]
      exact fun h => h.2.1 hglobal
    rw [kept_cons, if_neg hkept, hrest, hresult, List.map_cons]

/-- **Without the refused letters of one sender, in a service that is ahead.** The induction is
on the letters: those that are left out add to the lead, all others keep it, and once the common
bucket is empty the lead is what counts. -/
theorem same_iff_of_ahead (sender : PrincipalId) (letters : List Letter) :
    ∀ (s s' : Service) (cells : Nat), Ahead s s' cells → ∀ (i : Nat)
      (x : Letter × Except Error Unit), (s.kept sender letters)[i]? = some x →
      ((s'.posts ((s.kept sender letters).map (·.1)))[i]? = some x ↔
        i + s.excess sender letters < s.limits.globalLeft ∨ s.limits.globalLeft + cells ≤ i) := by
  induction letters with
  | nil => exact fun s s' cells A i x hx => by simp [kept, posts] at hx
  | cons letter rest ih =>
    intro s s' cells A i x hx
    by_cases hglobal : s.limits.globalLeft = 0
    case pos =>
      rw [kept_of_empty sender _ s hglobal] at hx ⊢
      rw [List.getElem?_map] at hx
      obtain ⟨l, hl, rfl⟩ := Option.map_eq_some_iff.mp hx
      have hletters : ((letter :: rest).map fun l =>
          (l, (Except.error (.rateLimited RateLimitError.global.message) : Except Error Unit))).map
          (·.1) = letter :: rest := by rw [List.map_map]; exact List.map_id _
      rw [hletters, refused_at_iff s' hl, A.common, hglobal]
      omega
    case neg =>
      rw [kept_cons] at hx ⊢
      rw [excess_cons]
      by_cases hexceeds : exceeds sender (letter, (s.post letter).2) = true
      · rw [if_pos hexceeds] at hx ⊢
        rw [if_pos hexceeds, ih _ _ _ (A.skip hexceeds) i x hx, globalLeft_post]
        omega
      · rw [if_neg hexceeds] at hx ⊢
        rw [if_neg hexceeds, List.map_cons, posts, A.result hglobal]
        cases i with
        | zero =>
          have hle := excess_le sender rest (s.post letter).1
          rw [globalLeft_post] at hle
          have hfirst : 0 + ((s.post letter).1.excess sender rest + 0) < s.limits.globalLeft := by
            omega
          exact iff_of_true hx (.inl hfirst)
        | succ i =>
          rw [List.getElem?_cons_succ, ih _ _ _ (A.post hglobal letter) i x hx, globalLeft_post]
          omega

/-- A letter that is kept was refused for the common rate if it came too late for it, after those
that are left out. -/
theorem kept_global_iff (sender : PrincipalId) (letters : List Letter) : ∀ (s : Service) (i : Nat)
    (x : Letter × Except Error Unit), (s.kept sender letters)[i]? = some x →
      (isRefusal .global x.2 = true ↔ s.limits.globalLeft ≤ i + s.excess sender letters) := by
  induction letters with
  | nil => exact fun s i x hx => by simp [kept, posts] at hx
  | cons letter rest ih =>
    intro s i x hx
    have hle := excess_le sender rest (s.post letter).1
    rw [globalLeft_post] at hle
    rw [kept_cons] at hx
    rw [excess_cons]
    by_cases hexceeds : exceeds sender (letter, (s.post letter).2) = true
    · have hglobal := ((exceeds_post s sender letter).mp hexceeds).2.1
      rw [if_pos hexceeds] at hx ⊢
      rw [ih _ i x hx, globalLeft_post]
      omega
    · rw [if_neg hexceeds] at hx ⊢
      cases i with
      | zero =>
        obtain rfl := Option.some.inj hx
        rw [isRefusal_global_post]
        omega
      | succ i =>
        rw [ih _ i x hx, globalLeft_post]
        omega

/-- **A letter ends as it did without the refused letters of another sender**, unless the
common bucket refused it and now has a cell for it. -/
theorem compared_of_posts (s : Service) (sender : PrincipalId) (letters : List Letter) :
    Compared s sender letters where
  same_iff i x hx := by
    have hahead : Ahead s s 0 := ⟨rfl, fun _ => rfl, fun _ => rfl⟩
    have hglobal := kept_global_iff sender letters s i x hx
    rw [same_iff_of_ahead sender letters s s 0 hahead i x hx, ← Bool.not_eq_true, hglobal]
    omega
  refused_iff := kept_global_iff sender letters s

/-! ### A crowd -/

/-- A place with two users, where one letter of each and two of all may be sent at once. -/
def crowd : Config where
  principals := [⟨⟨⟨1⟩, "alice", false⟩, "t-alice"⟩, ⟨⟨⟨2⟩, "bob", false⟩, "t-bob"⟩]
  limits := { messagesPerMinute := 1, globalRequestsPerSecond := 2 }

def crowdDirectory : Directory := (Directory.ofEntries crowd.principals).toOption.get rfl

/-- The service of the place at its start. -/
def crowdStart : Service := (Service.ofConfig crowd crowdDirectory 0).toOption.get rfl

/-- A letter of somebody to itself. -/
def memo (id : PrincipalId) : Letter := ⟨id, id, .request, "m", .null⟩

/-- **One user writes twice and is refused once for its own quota. For that another one is
refused**, who is not if the refused letter is left out. -/
theorem refused_for_another : Service.ofConfig crowd crowdDirectory 0 = .ok crowdStart ∧
    (crowdStart.posts [memo ⟨1⟩, memo ⟨1⟩, memo ⟨2⟩]).map (exceeds ⟨1⟩) = [false, true, false] ∧
    (crowdStart.posts [memo ⟨1⟩, memo ⟨1⟩, memo ⟨2⟩]).map (·.2.toBool) = [true, false, false] ∧
    (crowdStart.posts [memo ⟨1⟩, memo ⟨2⟩]).map (·.2.toBool) = [true, true] :=
  ⟨rfl, by decide +kernel, by decide +kernel, by decide +kernel⟩

end Service
end DeviceRelay

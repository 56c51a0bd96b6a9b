import CopyMint.Bot.RateLimits
import CopyMint.Library.FixedWindow

/-!
# The windows of the rate limit

A hit is one transaction of three Redis commands: the counter of a key is raised, the
key is given an expiry unless it has one, and the time it has left is read. Every key
has an expiry after every transaction, so that the hits of a subject are counted in
fixed windows, apart from the hits of all other subjects.
-/

namespace CopyMint

open Hexadecimal Fallible FixedWindow

/-- The value of a key, and the time in milliseconds at which it vanishes, if it does. -/
structure RedisEntry where
  value : ℕ
  expiresAt : Option ℕ
  deriving DecidableEq

/-- The keys of Redis, each with its value and its expiry. -/
abbrev RedisKeys := Text → Option RedisEntry

namespace RedisKeys

/-- The entry of a key that has not vanished. -/
def live (keys : RedisKeys) (now : ℕ) (key : Text) : Option RedisEntry :=
  (keys key).filter fun entry => entry.expiresAt.all fun expiresAt => now < expiresAt

/-- `INCR key`. -/
def incr (keys : RedisKeys) (now : ℕ) (key : Text) : RedisKeys × ℕ :=
  match keys.live now key with
  | some entry =>
      (Function.update keys key (some { entry with value := entry.value + 1 }), entry.value + 1)
  | none => (Function.update keys key (some ⟨1, none⟩), 1)

/-- `EXPIRE key seconds NX`. -/
def expireNx (keys : RedisKeys) (now : ℕ) (key : Text) (seconds : ℕ) : RedisKeys × Bool :=
  match keys.live now key with
  | some ⟨value, none⟩ =>
      (Function.update keys key (some ⟨value, some (now + seconds * 1000)⟩), true)
  | _ => (keys, false)

/-- `TTL key`, in seconds. -/
def ttl (keys : RedisKeys) (now : ℕ) (key : Text) : ℤ :=
  match keys.live now key with
  | none => -2
  | some ⟨_, none⟩ => -1
  | some ⟨_, some expiresAt⟩ => ((expiresAt - now + 500) / 1000 : ℕ)

/-- No key stays for ever. -/
def AllExpire (keys : RedisKeys) : Prop :=
  ∀ key entry, keys key = some entry → entry.expiresAt ≠ none

/-- Redis without keys. -/
def empty : RedisKeys := fun _ => none

end RedisKeys

/-- The counters of the rate limit as Redis keeps them. -/
def RateKeys.stored (keys : RateKeys) : RedisKeys :=
  fun key => (keys key).map fun counter => ⟨counter.count, some counter.expiresAt⟩

namespace RedisRateLimiter

variable (limiter : RedisRateLimiter)

/-- `hit`, with the commands of its transaction. -/
def hitTransaction (now : ℕ) (scope subject : Text) (limit windowSeconds : ℕ)
    (keys : RedisKeys) : Except Raised (RedisKeys × RateLimitDecision) :=
  if scope = [] ∨ subject = [] then
    .error (.valueError "rate-limit scope and subject are required")
  else if limit < 1 ∨ windowSeconds < 1 then
    .error (.valueError "rate-limit and window must be positive")
  else
    let key := limiter.key scope subject
    let (keys, count) := keys.incr now key
    let (keys, _) := keys.expireNx now key windowSeconds
    let ttl := max (keys.ttl now key) 1
    .ok (keys, ⟨count ≤ limit, count, limit, ttl.toNat⟩)

end RedisRateLimiter

/-- Whose hits are counted together. -/
inductive RateSubject where
  | telegramUser (id : ℤ)
  | workspace (id : Uuid)
  deriving DecidableEq

/-- The scope of a counter. -/
def RateSubject.scope : RateSubject → Text
  | .telegramUser _ => "telegram_user".toList
  | .workspace _ => "workspace".toList

/-- The subject of a counter as it is written in its key. -/
def RateSubject.text : RateSubject → Text
  | .telegramUser id => Json.decimal id
  | .workspace id => uuidText id.val

/-- A hit at a time. -/
structure RateHit where
  now : ℕ
  subject : RateSubject
  deriving DecidableEq

/-- The limit and the window of every subject. -/
structure RateRules where
  limit : RateSubject → ℕ
  windowSeconds : RateSubject → ℕ
  limit_pos : ∀ subject, 1 ≤ limit subject
  windowSeconds_pos : ∀ subject, 1 ≤ windowSeconds subject

/-- The length of a window in milliseconds. -/
def RateRules.window (rules : RateRules) (subject : RateSubject) : ℕ :=
  rules.windowSeconds subject * 1000

namespace RedisRateLimiter

variable (limiter : RedisRateLimiter) (rules : RateRules)

/-- The key of a subject. -/
def subjectKey (subject : RateSubject) : Text := limiter.key subject.scope subject.text

/-- One hit after another, with the decision on each. -/
def hitAll : List RateHit → RedisKeys → Except Raised (List (RateHit × RateLimitDecision) × RedisKeys)
  | [], keys => .ok ([], keys)
  | hit :: hits, keys => do
      let (keys, decision) ← limiter.hitTransaction hit.now hit.subject.scope hit.subject.text
        (rules.limit hit.subject) (rules.windowSeconds hit.subject) keys
      let (answered, keys) ← hitAll hits keys
      .ok ((hit, decision) :: answered, keys)

end RedisRateLimiter

section Transaction

variable {keys : RedisKeys} {key scope subject : Text} {now limit windowSeconds : ℕ}

/-- The counter that a key with an expiry stands for. -/
def RedisKeys.counter (keys : RedisKeys) (key : Text) : Option Counter :=
  (keys key).bind fun entry => entry.expiresAt.map fun expiresAt => ⟨entry.value, expiresAt⟩

/-- The entry of a counter. -/
def counterEntry (counter : Counter) : RedisEntry := ⟨counter.count, some counter.expiresAt⟩

theorem RedisKeys.allExpire_empty : RedisKeys.empty.AllExpire := by
  intro key entry impossible
  cases impossible

theorem RedisKeys.AllExpire.update (expire : keys.AllExpire) (key : Text) (counter : Counter) :
    RedisKeys.AllExpire (Function.update keys key (some (counterEntry counter))) := by
  intro other entry found
  by_cases same : other = key
  · subst same
    rw [Function.update_self] at found
    cases found
    exact Option.some_ne_none _
  · rw [Function.update_of_ne same] at found
    exact expire other entry found

/-- A key that is not there begins a window. -/
theorem commands_of_dead (dead : keys.live now key = none) (windowSeconds : ℕ) :
    (keys.incr now key).2 = 1 ∧
      ((keys.incr now key).1.expireNx now key windowSeconds).1 =
        Function.update keys key (some (counterEntry ⟨1, now + windowSeconds * 1000⟩)) := by
  have raised : keys.incr now key = (Function.update keys key (some ⟨1, none⟩), 1) := by
    simp [RedisKeys.incr, dead]
  have live : RedisKeys.live (Function.update keys key (some ⟨1, none⟩)) now key =
      some ⟨1, none⟩ := by
    simp [RedisKeys.live]
  rw [raised]
  refine ⟨rfl, ?_⟩
  simp only [RedisKeys.expireNx, live, Function.update_idem]
  rfl

/-- A key with an expiry keeps it. -/
theorem commands_of_live {value expiresAt : ℕ}
    (live : keys.live now key = some ⟨value, some expiresAt⟩) (soon : now < expiresAt)
    (windowSeconds : ℕ) :
    (keys.incr now key).2 = value + 1 ∧
      ((keys.incr now key).1.expireNx now key windowSeconds).1 =
        Function.update keys key (some (counterEntry ⟨value + 1, expiresAt⟩)) := by
  have raised : keys.incr now key =
      (Function.update keys key (some ⟨value + 1, some expiresAt⟩), value + 1) := by
    simp [RedisKeys.incr, live]
  have still : RedisKeys.live (Function.update keys key (some ⟨value + 1, some expiresAt⟩)) now
      key = some ⟨value + 1, some expiresAt⟩ := by
    simp [RedisKeys.live, soon]
  rw [raised]
  refine ⟨rfl, ?_⟩
  simp only [RedisKeys.expireNx, still]
  rfl

theorem live_eq_none_iff (expire : keys.AllExpire) :
    keys.live now key = none ↔ Closed (keys.counter key) now := by
  simp only [RedisKeys.live, RedisKeys.counter, Closed]
  cases found : keys key with
  | none => simp
  | some entry =>
      rcases entry with ⟨value, _ | expiresAt⟩
      · exact absurd rfl (expire key _ found)
      · simp [Option.filter]

/-- What the commands do to a key: they count the hit in its window. -/
theorem commands_eq (expire : keys.AllExpire) (now : ℕ) (key : Text) (windowSeconds : ℕ) :
    (keys.incr now key).2 = (count (windowSeconds * 1000) now (keys.counter key)).count ∧
      ((keys.incr now key).1.expireNx now key windowSeconds).1 =
        Function.update keys key
          (some (counterEntry (count (windowSeconds * 1000) now (keys.counter key)))) := by
  cases live : keys.live now key with
  | none =>
      have closed := (live_eq_none_iff expire).mp live
      rw [count_of_closed (windowSeconds * 1000) closed]
      exact commands_of_dead live windowSeconds
  | some entry =>
      rcases Option.filter_eq_some_iff.mp live with ⟨found, soon⟩
      rcases entry with ⟨value, _ | expiresAt⟩
      · exact absurd rfl (expire key _ found)
      · have soon : now < (⟨value, expiresAt⟩ : Counter).expiresAt := of_decide_eq_true soon
        have counter : keys.counter key = some ⟨value, expiresAt⟩ := by
          simp [RedisKeys.counter, found]
        rw [counter, count_of_open (windowSeconds * 1000) soon]
        exact commands_of_live live soon windowSeconds

/-- What is given an expiry can be read until then. -/
theorem ttl_of_update {counter : Counter} (soon : now < counter.expiresAt) :
    RedisKeys.ttl (Function.update keys key (some (counterEntry counter))) now key =
      ((counter.expiresAt - now + 500) / 1000 : ℕ) := by
  have live : RedisKeys.live (Function.update keys key (some (counterEntry counter))) now key =
      some (counterEntry counter) := by
    simp [RedisKeys.live, counterEntry, soon]
  simp only [RedisKeys.ttl, live]
  rfl

theorem lt_expiresAt_count (length now : ℕ) (positive : 0 < length) (counter : Option Counter) :
    now < (count length now counter).expiresAt := by
  by_cases closed : Closed counter now
  · rw [count_of_closed length closed]
    exact Nat.lt_add_of_pos_right positive
  · cases counter with
    | none => exact absurd (fun _ impossible => nomatch impossible) closed
    | some open_ =>
        have soon : now < open_.expiresAt := by
          by_contra ended
          refine closed fun other other_eq => ?_
          cases other_eq
          exact not_lt.mp ended
        rw [count_of_open length soon]
        exact soon

/-- The decision on a hit that a counter has counted. -/
def decisionOf (counter : Counter) (limit now : ℕ) : RateLimitDecision where
  allowed := counter.count ≤ limit
  count := counter.count
  limit := limit
  retryAfterSeconds := max ((counter.expiresAt - now + 500) / 1000) 1

/-- A hit counts itself in the window of its key and leaves the other keys alone. -/
theorem hitTransaction_eq (limiter : RedisRateLimiter) (expire : keys.AllExpire)
    (scope_ne : scope ≠ []) (subject_ne : subject ≠ []) (limit_pos : 1 ≤ limit)
    (windowSeconds_pos : 1 ≤ windowSeconds) (now : ℕ) :
    limiter.hitTransaction now scope subject limit windowSeconds keys =
      .ok (Function.update keys (limiter.key scope subject)
          (some (counterEntry (count (windowSeconds * 1000) now
            (keys.counter (limiter.key scope subject))))),
        decisionOf (count (windowSeconds * 1000) now
          (keys.counter (limiter.key scope subject))) limit now) := by
  rcases commands_eq expire now (limiter.key scope subject) windowSeconds with ⟨counted, stored⟩
  have soon := lt_expiresAt_count (windowSeconds * 1000) now (by omega)
    (keys.counter (limiter.key scope subject))
  have ttl : RedisKeys.ttl (Function.update keys (limiter.key scope subject) _) now _ = _ :=
    ttl_of_update soon
  have present : ¬(scope = [] ∨ subject = []) := by simp [scope_ne, subject_ne]
  have positive : ¬(limit < 1 ∨ windowSeconds < 1) := by omega
  simp only [RedisRateLimiter.hitTransaction, if_neg present, if_neg positive, counted, stored, ttl]
  congr 2
  simp only [decisionOf]
  congr 1
  omega

theorem allExpire_stored (keys : RateKeys) : keys.stored.AllExpire := by
  intro key entry found
  rcases Option.map_eq_some_iff.mp found with ⟨counter, _, rfl⟩
  exact Option.some_ne_none _

theorem stored_update (keys : RateKeys) (key : Text) (counter : RateCounter) :
    RateKeys.stored (Function.update keys key (some counter)) =
      Function.update keys.stored key (some (counterEntry ⟨counter.count, counter.expiresAt⟩)) := by
  funext other
  by_cases same : other = key
  · subst same
    simp [RateKeys.stored, counterEntry]
  · simp [RateKeys.stored, same]

/-- The transaction does what `hit` does to keys that all have an expiry. -/
theorem hitTransaction_stored (limiter : RedisRateLimiter) (now : ℕ) (scope subject : Text)
    (limit windowSeconds : ℕ) (keys : RateKeys) :
    limiter.hitTransaction now scope subject limit windowSeconds keys.stored =
      (limiter.hit now scope subject limit windowSeconds keys).map fun result =>
        (RateKeys.stored result.1, result.2) := by
  by_cases missing : scope = [] ∨ subject = []
  · simp only [RedisRateLimiter.hitTransaction, RedisRateLimiter.hit, if_pos missing, Except.map]
  by_cases small : limit < 1 ∨ windowSeconds < 1
  · simp only [RedisRateLimiter.hitTransaction, RedisRateLimiter.hit, if_neg missing,
      if_pos small, Except.map]
  have present : scope ≠ [] ∧ subject ≠ [] := not_or.mp missing
  rw [hitTransaction_eq limiter (allExpire_stored keys) present.1 present.2 (by omega) (by omega)]
  simp only [RedisRateLimiter.hit, if_neg missing, if_neg small, Except.map, Except.ok.injEq,
    Prod.mk.injEq, stored_update]
  generalize limiter.key scope subject = key
  have counter_eq : keys.stored.counter key =
      (keys key).map fun counter => ⟨counter.count, counter.expiresAt⟩ := by
    cases found : keys key <;> simp [RedisKeys.counter, RateKeys.stored, found]
  rw [counter_eq]
  cases found : keys key with
  | none => exact ⟨rfl, rfl⟩
  | some counter =>
      by_cases soon : now < counter.expiresAt
      · simp [count, Option.filter, soon, decisionOf]
      · simp [count, Option.filter, soon, decisionOf]

end Transaction

section Runs

variable {limiter : RedisRateLimiter} {rules : RateRules} {keys : RedisKeys}
  {hits : List RateHit}

theorem RateSubject.scope_ne (subject : RateSubject) : subject.scope ≠ [] := by
  cases subject with
  | telegramUser id =>
      have letters : "telegram_user".toList ≠ [] := by decide +kernel
      exact letters
  | workspace id =>
      have letters : "workspace".toList ≠ [] := by decide +kernel
      exact letters

theorem RateSubject.text_ne (subject : RateSubject) : subject.text ≠ [] := by
  cases subject with
  | telegramUser id =>
      simp only [RateSubject.text, Json.decimal]
      split_ifs
      · exact List.cons_ne_nil _ _
      · exact Nat.toDigits_ne_nil
  | workspace id => simp [RateSubject.text, uuidText]

/-- The scopes differ in their first letters. -/
theorem scope_append_ne (id : ℤ) (other : Uuid) (first second : Text) :
    (RateSubject.telegramUser id).scope ++ first ≠ (RateSubject.workspace other).scope ++ second := by
  have telegramUser : (RateSubject.telegramUser id).scope = 't' :: "elegram_user".toList := by
    have letters : "telegram_user".toList = 't' :: "elegram_user".toList := by decide +kernel
    exact letters
  have workspace : (RateSubject.workspace other).scope = 'w' :: "orkspace".toList := by
    have letters : "workspace".toList = 'w' :: "orkspace".toList := by decide +kernel
    exact letters
  rw [telegramUser, workspace, List.cons_append, List.cons_append]
  intro same
  exact absurd (List.cons.inj same).1 (by decide)

theorem scope_text_of_key_eq {scope other text otherText : Text}
    (same : limiter.key scope text = limiter.key other otherText) :
    scope ++ ':' :: text = other ++ ':' :: otherText := by
  have key_eq : ∀ scope text, limiter.key scope text =
      "copymint:".toList ++ limiter.environment ++ ":rate:".toList ++ scope ++ ':' :: text :=
    fun _ _ => rfl
  rw [key_eq, key_eq] at same
  generalize "copymint:".toList ++ limiter.environment ++ ":rate:".toList = start at same
  rw [List.append_assoc, List.append_assoc] at same
  exact List.append_cancel_left same

/-- Subjects of both scopes have keys of their own. -/
theorem subjectKey_injective {first second : RateSubject}
    (same : limiter.subjectKey first = limiter.subjectKey second) : first = second := by
  have same := scope_text_of_key_eq same
  cases first with
  | telegramUser id =>
      cases second with
      | telegramUser other =>
          have scopes : (RateSubject.telegramUser id).scope =
            (RateSubject.telegramUser other).scope := rfl
          rw [scopes, List.append_cancel_left_eq] at same
          exact congrArg RateSubject.telegramUser (Json.decimal_injective (List.cons.inj same).2)
      | workspace other => exact absurd same (scope_append_ne id other _ _)
  | workspace id =>
      cases second with
      | telegramUser other => exact absurd same.symm (scope_append_ne other id _ _)
      | workspace other =>
          have scopes : (RateSubject.workspace id).scope = (RateSubject.workspace other).scope := rfl
          rw [scopes, List.append_cancel_left_eq] at same
          have texts := uuidText_injective id.property other.property (List.cons.inj same).2
          exact congrArg RateSubject.workspace (Subtype.ext texts)

variable (rules) in
/-- The decisions on the hits of a subject, by the counter of its key. -/
def answersOf (subject : RateSubject) :
    Option Counter → List RateHit → List (RateHit × RateLimitDecision)
  | _, [] => []
  | counter, hit :: hits =>
      (hit, decisionOf (count (rules.window subject) hit.now counter) (rules.limit subject)
          hit.now) ::
        answersOf subject (some (count (rules.window subject) hit.now counter)) hits

/-- The hits of a subject. -/
def hitsOf (subject : RateSubject) (hits : List RateHit) : List RateHit :=
  hits.filter fun hit => hit.subject = subject

/-- The hits of one subject among those that were answered. -/
def answeredOf (subject : RateSubject) (answered : List (RateHit × RateLimitDecision)) :
    List (RateHit × RateLimitDecision) :=
  answered.filter fun pair => pair.1.subject = subject

theorem RedisKeys.counter_update_self (keys : RedisKeys) (key : Text) (counter : Counter) :
    RedisKeys.counter (Function.update keys key (some (counterEntry counter))) key =
      some counter := by
  simp [RedisKeys.counter, counterEntry]

theorem RedisKeys.counter_update_of_ne (keys : RedisKeys) {key other : Text} (different : other ≠ key)
    (entry : Option RedisEntry) :
    RedisKeys.counter (Function.update keys key entry) other = keys.counter other := by
  simp [RedisKeys.counter, different]

/-- A run decides about every hit, and about those of a subject by the counter of its key alone. -/
theorem hitAll_spec (limiter : RedisRateLimiter) (rules : RateRules) (hits : List RateHit)
    (expire : keys.AllExpire) :
    ∃ answered finish, limiter.hitAll rules hits keys = .ok (answered, finish) ∧
      finish.AllExpire ∧ answered.map Prod.fst = hits ∧
      ∀ subject, answeredOf subject answered =
        answersOf rules subject (keys.counter (limiter.subjectKey subject))
          (hitsOf subject hits) := by
  induction hits generalizing keys with
  | nil => exact ⟨[], keys, rfl, expire, rfl, fun _ => rfl⟩
  | cons hit hits ih =>
      have counted := hitTransaction_eq limiter expire hit.subject.scope_ne hit.subject.text_ne
        (rules.limit_pos hit.subject) (rules.windowSeconds_pos hit.subject) hit.now
      rcases ih (expire.update (limiter.subjectKey hit.subject) (count (rules.window hit.subject)
        hit.now (keys.counter (limiter.subjectKey hit.subject)))) with
        ⟨answered, finish, ran, kept, same, answers⟩
      refine ⟨(hit, decisionOf (count (rules.window hit.subject) hit.now
        (keys.counter (limiter.subjectKey hit.subject))) (rules.limit hit.subject) hit.now) ::
          answered, finish, ?_, kept, ?_, fun subject => ?_⟩
      · rw [RedisRateLimiter.hitAll, counted, ok_bind]
        exact bind_eq_ok_iff.mpr ⟨(answered, finish), ran, rfl⟩
      · rw [List.map_cons, same]
      · have later := answers subject
        by_cases own : hit.subject = subject
        · subst own
          rw [RedisKeys.counter_update_self] at later
          simp only [answeredOf, hitsOf, List.filter_cons, decide_true, if_true, answersOf] at later ⊢
          rw [later]
        · have different : limiter.subjectKey subject ≠ limiter.subjectKey hit.subject :=
            fun keys_eq => own (subjectKey_injective keys_eq).symm
          rw [RedisKeys.counter_update_of_ne keys different] at later
          simpa [answeredOf, hitsOf, own] using later

theorem hitAll_append (limiter : RedisRateLimiter) (rules : RateRules) (first second : List RateHit)
    (keys : RedisKeys) :
    limiter.hitAll rules (first ++ second) keys =
      limiter.hitAll rules first keys >>= fun reached =>
        limiter.hitAll rules second reached.2 >>= fun ended =>
          .ok (reached.1 ++ ended.1, ended.2) := by
  induction first generalizing keys with
  | nil =>
      simp only [List.nil_append, RedisRateLimiter.hitAll, ok_bind]
      cases limiter.hitAll rules second keys <;> rfl
  | cons hit first ih =>
      rw [List.cons_append, RedisRateLimiter.hitAll, RedisRateLimiter.hitAll]
      cases limiter.hitTransaction hit.now hit.subject.scope hit.subject.text
          (rules.limit hit.subject) (rules.windowSeconds hit.subject) keys with
      | error raised => rfl
      | ok counted =>
          simp only [ok_bind, ih]
          cases limiter.hitAll rules first counted.1 with
          | error raised => rfl
          | ok reached =>
              simp only [ok_bind]
              cases limiter.hitAll rules second reached.2 <;> rfl

/-- The time of a hit with its count. -/
def timeAndCount (pair : RateHit × RateLimitDecision) : ℕ × ℕ := (pair.1.now, pair.2.count)

theorem map_answersOf (subject : RateSubject) (counter : Option Counter) (hits : List RateHit) :
    (answersOf rules subject counter hits).map timeAndCount =
      counted (rules.window subject) counter (hits.map RateHit.now) := by
  induction hits generalizing counter with
  | nil => rfl
  | cons hit hits ih =>
      rw [answersOf, List.map_cons, ih]
      rfl

theorem allowed_of_mem_answersOf {subject : RateSubject} {counter : Option Counter}
    {pair : RateHit × RateLimitDecision} (pair_mem : pair ∈ answersOf rules subject counter hits) :
    pair.2.allowed = decide (pair.2.count ≤ rules.limit subject) := by
  induction hits generalizing counter with
  | nil => cases pair_mem
  | cons hit hits ih =>
      rcases List.mem_cons.mp pair_mem with rfl | later
      · rfl
      · exact ih later

/-- The hits of a subject in a stretch of time that are allowed, by their counts. -/
theorem map_filter_answersOf (subject : RateSubject) (counter : Option Counter)
    (hits : List RateHit) (keep : ℕ → Bool) :
    ((answersOf rules subject counter hits).filter fun pair => keep pair.1.now).map timeAndCount =
      (counted (rules.window subject) counter (hits.map RateHit.now)).filter
        fun hit => keep hit.1 := by
  rw [← map_answersOf, List.filter_map]
  rfl

theorem RateRules.window_pos (rules : RateRules) (subject : RateSubject) :
    0 < rules.window subject :=
  Nat.mul_pos (rules.windowSeconds_pos subject) (by omega)

/-- The decisions on hits of a subject in a stretch of time. -/
def decidedWithin (subject : RateSubject) (keep : ℕ → Bool)
    (answered : List (RateHit × RateLimitDecision)) : List (RateHit × RateLimitDecision) :=
  answered.filter fun pair => pair.1.subject = subject ∧ keep pair.1.now

/-- The hits that were let pass. -/
def letPass (answered : List (RateHit × RateLimitDecision)) : List (RateHit × RateLimitDecision) :=
  answered.filter fun pair => pair.2.allowed

theorem decidedWithin_eq (subject : RateSubject) (keep : ℕ → Bool)
    (answered : List (RateHit × RateLimitDecision)) :
    decidedWithin subject keep answered =
      (answeredOf subject answered).filter fun pair => keep pair.1.now := by
  rw [decidedWithin, answeredOf, List.filter_filter]
  refine List.filter_congr fun pair _ => ?_
  rw [Bool.eq_iff_iff]
  simp [and_comm]

/-- What is let pass is decided by the counts. -/
theorem letPass_filter_answersOf (subject : RateSubject) (counter : Option Counter)
    (hits : List RateHit) (keep : ℕ → Bool) :
    letPass ((answersOf rules subject counter hits).filter fun pair => keep pair.1.now) =
      ((answersOf rules subject counter hits).filter fun pair => keep pair.1.now).filter
        fun pair => (timeAndCount pair).2 ≤ rules.limit subject := by
  refine List.filter_congr fun pair pair_mem => ?_
  exact allowed_of_mem_answersOf (List.mem_of_mem_filter pair_mem)

/-- Of the hits in a window the first ones are let pass, as many as the limit says. -/
theorem letPass_window {subject : RateSubject} {counter : Option Counter} {start : RateHit}
    {later : List RateHit} (closed : Closed counter start.now)
    (ascending : (start :: later).Pairwise fun first second => first.now ≤ second.now) :
    letPass ((answersOf rules subject counter (start :: later)).filter
        fun pair => pair.1.now < start.now + rules.window subject) =
      ((answersOf rules subject counter (start :: later)).filter
        fun pair => pair.1.now < start.now + rules.window subject).take (rules.limit subject) := by
  have times : (start.now :: later.map RateHit.now).Pairwise (· ≤ ·) := by
    rw [← List.map_cons, List.pairwise_map]
    exact ascending
  have window := allowed_window (rules.window_pos subject) closed times (rules.limit subject)
  rw [← List.map_cons, ← map_filter_answersOf subject counter (start :: later)
    fun now => now < start.now + rules.window subject] at window
  rw [letPass_filter_answersOf subject counter (start :: later)
    fun now => now < start.now + rules.window subject]
  exact filter_eq_take_of_map timeAndCount _ window

/-- In a stretch of time as long as a window, two limits are let pass at most. -/
theorem length_letPass_stretch_le (subject : RateSubject) (counter : Option Counter)
    (ascending : hits.Pairwise fun first second => first.now ≤ second.now) (start : ℕ) :
    (letPass ((answersOf rules subject counter hits).filter
      fun pair => start ≤ pair.1.now ∧ pair.1.now ≤ start + rules.window subject)).length ≤
      2 * rules.limit subject := by
  have times : (hits.map RateHit.now).Pairwise (· ≤ ·) := by
    rw [List.pairwise_map]
    exact ascending
  have stretch := length_allowed_stretch_le (rules.window_pos subject) counter times start
    (rules.limit subject)
  rw [← map_filter_answersOf subject counter hits
    fun now => start ≤ now ∧ now ≤ start + rules.window subject, allowed, List.filter_map,
    List.length_map] at stretch
  rw [letPass_filter_answersOf subject counter hits
    fun now => start ≤ now ∧ now ≤ start + rules.window subject]
  exact stretch

end Runs

/-- A hit finds no key of its subject, behind the hits before it. -/
def BeginsWindow (limiter : RedisRateLimiter) (rules : RateRules) (before : List RateHit)
    (start : RateHit) : Prop :=
  ∃ answered keys, limiter.hitAll rules before .empty = .ok (answered, keys) ∧
    keys.live start.now (limiter.subjectKey start.subject) = none

/-- The decisions on the hits of a window, by the hits before the one that begins it. -/
def decidedInWindow (rules : RateRules) (before : List RateHit) (start : RateHit)
    (answered : List (RateHit × RateLimitDecision)) : List (RateHit × RateLimitDecision) :=
  decidedWithin start.subject (fun now => now < start.now + rules.window start.subject)
    (answered.drop before.length)

/--
Hits at ascending times are all decided about. In a window the first hits are let pass,
as many as the limit says, and in any stretch of time as long as a window at most twice
as many. Every key has an expiry at any time, and the hits of a subject are decided as
if they were the only ones.
-/
theorem hitAll_isFixedWindow (limiter : RedisRateLimiter) (rules : RateRules) {hits : List RateHit}
    (ascending : hits.Pairwise fun first second => first.now ≤ second.now) :
    ∃ answered finish, limiter.hitAll rules hits .empty = .ok (answered, finish) ∧
      answered.map Prod.fst = hits ∧
      (∀ before start later, hits = before ++ start :: later →
        BeginsWindow limiter rules before start →
        letPass (decidedInWindow rules before start answered) =
            (decidedInWindow rules before start answered).take (rules.limit start.subject) ∧
          (letPass (decidedInWindow rules before start answered)).length ≤
            rules.limit start.subject) ∧
      (∀ subject start, (letPass (decidedWithin subject
        (fun now => start ≤ now ∧ now ≤ start + rules.window subject) answered)).length ≤
          2 * rules.limit subject) ∧
      (∀ earlier reached keys, earlier <+: hits →
        limiter.hitAll rules earlier .empty = .ok (reached, keys) → keys.AllExpire) ∧
      ∀ subject, ∃ keys, limiter.hitAll rules (hitsOf subject hits) .empty =
        .ok (answeredOf subject answered, keys) := by
  rcases hitAll_spec limiter rules hits RedisKeys.allExpire_empty with
    ⟨answered, finish, ran, _, same, answers⟩
  refine ⟨answered, finish, ran, same, ?_, ?_, ?_, ?_⟩
  · rintro before start later rfl ⟨earlier, reached, ranBefore, dead⟩
    rcases hitAll_spec limiter rules before RedisKeys.allExpire_empty with
      ⟨_, _, ranOther, expire, sameBefore, _⟩
    rw [ranBefore] at ranOther
    cases ranOther
    rcases hitAll_spec limiter rules (start :: later) expire with
      ⟨rest, ended, ranRest, _, _, answersRest⟩
    rw [hitAll_append, ranBefore, ok_bind, ranRest, ok_bind] at ran
    cases ran
    have dropped : (earlier ++ rest).drop before.length = rest := by
      rw [← sameBefore, List.length_map, List.drop_left]
    have own : hitsOf start.subject (start :: later) = start :: hitsOf start.subject later := by
      simp [hitsOf]
    have still : (start :: hitsOf start.subject later).Pairwise
        fun first second => first.now ≤ second.now := by
      rw [← own]
      exact (List.pairwise_append.mp ascending).2.1.filter _
    have window : letPass ((answersOf rules start.subject _ _).filter _) = _ :=
      letPass_window ((live_eq_none_iff expire).mp dead) still
    rw [decidedInWindow, dropped, decidedWithin_eq, answersRest, own]
    refine ⟨window, ?_⟩
    rw [window]
    exact List.length_take_le _ _
  · intro subject start
    rw [decidedWithin_eq, answers]
    have still := ascending.filter fun hit => hit.subject = subject
    exact length_letPass_stretch_le subject _ still start
  · intro earlier reached keys _ ranEarlier
    rcases hitAll_spec limiter rules earlier RedisKeys.allExpire_empty with
      ⟨other, ended, ranOther, expire, _⟩
    rw [ranEarlier] at ranOther
    cases ranOther
    exact expire
  · intro subject
    rcases hitAll_spec limiter rules (hitsOf subject hits) RedisKeys.allExpire_empty with
      ⟨alone, keys, ranAlone, _, sameAlone, answersAlone⟩
    have all_own : answeredOf subject alone = alone := by
      rw [answeredOf, List.filter_eq_self]
      intro pair pair_mem
      have found : pair.1 ∈ hitsOf subject hits := sameAlone ▸ List.mem_map_of_mem pair_mem
      exact (List.mem_filter.mp found).2
    have once : hitsOf subject (hitsOf subject hits) = hitsOf subject hits := by
      rw [hitsOf, hitsOf, List.filter_filter]
      simp only [Bool.and_self]
    refine ⟨keys, ?_⟩
    rw [ranAlone, answers subject, ← once, ← answersAlone, all_own]

section Samples

/-- Two hits in a minute. -/
def sampleRules : RateRules where
  limit _ := 2
  windowSeconds _ := 60
  limit_pos _ := Nat.zero_lt_succ _
  windowSeconds_pos _ := Nat.zero_lt_succ _

/-- A user and a workspace, and the user again when the minute is over. -/
def sampleHits : List RateHit :=
  [⟨0, .telegramUser 99⟩, ⟨10000, .workspace ⟨17, by decide⟩⟩, ⟨20000, .telegramUser 99⟩,
    ⟨30000, .telegramUser 99⟩, ⟨60000, .telegramUser 99⟩]

end Samples

/-- The third hit of the minute is held back, and the next minute begins anew. -/
theorem sampleHits_isFixedWindow :
    ∃ answered finish, sampleLimiter.hitAll sampleRules sampleHits .empty = .ok (answered, finish) ∧
      answered.map (fun pair => pair.2.allowed) = [true, true, true, false, true] ∧
      (letPass (decidedInWindow sampleRules [] ⟨0, .telegramUser 99⟩ answered)).length ≤ 2 := by
  have decided : (sampleLimiter.hitAll sampleRules sampleHits .empty).toOption.map
      (fun result => result.1.map fun pair => pair.2.allowed) =
        some [true, true, true, false, true] := by
    decide +kernel
  rcases hitAll_isFixedWindow sampleLimiter sampleRules (show sampleHits.Pairwise _ by decide) with
    ⟨answered, finish, ran, _, windows, _⟩
  rw [ran] at decided
  refine ⟨answered, finish, ran, Option.some.inj decided, ?_⟩
  exact (windows [] _ _ rfl ⟨[], .empty, rfl, rfl⟩).2

end CopyMint

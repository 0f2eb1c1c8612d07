import SoftEther.Remote.SourceIdentity

namespace SoftEther.Remote

open SoftEther.Parser (Platform)

/-!
# A fetch and its redirects (`OkHttpFetcher`)

The client follows no redirect by itself. Each reply that redirects is checked against the policy
of the source, and the address of the next request is the one that was checked.

* `Reply`, `HttpResponse` — what a request is answered with, and what a fetch returns;
* `turn`, `execute` — one round of the loop, and the loop, with a bound on its rounds;
* `Kept`, `kept_of_follow` — what every round keeps that goes on;
* `Confined`, `execute_ends` — the loop ends, and what holds then.
-/

/-! ### Requests and replies -/

/-- A response, as it is read; `location` is the header. -/
structure RawResponse where
  code : ℤ
  location : Option String
  contentType : Option String
  /-- `contentLength()`, `-1` when it is not declared. -/
  declared : ℤ
  /-- The length and the text of the body; `none` when it cannot be read. -/
  body : Option (ℕ × String)

/-- What a request ends with. -/
inductive Reply where
  | response (raw : RawResponse)
  | ioException
  /-- Another exception: an address that the client does not take, or a cancellation. -/
  | otherException

structure HttpResponse where
  requestedUrl : String
  finalUrl : String
  status : ℤ
  contentType : Option String
  body : Option String
  redirectChain : List String
  redirectRejected : Bool := false
  redirectRejectionReason : Option String := none

/-- How a fetch ends; it returns `null` after an `IOException`. -/
inductive Outcome where
  | returned (response : Option HttpResponse)
  | thrown

/-- The longest body that is read. -/
def MAX_RESPONSE_BYTES : ℕ := 8 * 1024 * 1024

def RawResponse.isRedirect (raw : RawResponse) : Bool := 300 ≤ raw.code && raw.code ≤ 399

def RawResponse.isSuccessful (raw : RawResponse) : Bool := 200 ≤ raw.code && raw.code ≤ 299

/-! ### The loop -/

/-- The variables of the loop. -/
structure Loop where
  chain : List String
  current : String
  hops : Int32

/-- A round ends the fetch or goes on. -/
inductive Turn where
  | done (outcome : Outcome)
  | follow (next : Loop)

section Execute

variable (p : Platform) (resolve : String → String → Option String)

/-- The response that a round ends with, without content. -/
def Loop.answer (s : Loop) (url : String) (status : ℤ) (rejection : Option String) :
    HttpResponse where
  requestedUrl := url
  finalUrl := s.current
  status := status
  contentType := none
  body := none
  redirectChain := s.chain
  redirectRejected := rejection.isSome
  redirectRejectionReason := rejection

/-- A response that is no redirect. -/
def content (url : String) (s : Loop) (raw : RawResponse) : Outcome :=
  let answer (body : Option String) : Outcome :=
    .returned (some
      { requestedUrl := url
        finalUrl := s.current
        status := raw.code
        contentType := raw.contentType
        body := body
        redirectChain := s.chain })
  if !raw.isSuccessful then answer none
  else if MAX_RESPONSE_BYTES < raw.declared then answer none
  else
    match raw.body with
    | none => .returned none
    | some (length, text) => answer (if MAX_RESPONSE_BYTES < length then none else some text)

/-- One round: what becomes of a reply. `resolve` is what the client makes of a `Location`. -/
def turn (policy : Option RedirectPolicy) (url : String) (s : Loop) : Reply → Turn
  | .ioException => .done (.returned none)
  | .otherException => .done .thrown
  | .response raw =>
    let ends (rejection : Option String) : Turn :=
      .done (.returned (some (s.answer url raw.code rejection)))
    if !raw.isRedirect then .done (content url s raw)
    else if (raw.location.map p.isBlank).getD true then ends none
    else
      match resolve s.current (raw.location.getD "") with
      | none => ends (some "unresolvable redirect target")
      | some next =>
        match policy.bind fun policy => policy.rejectionReason p s.current next with
        | some rejection => ends (some rejection)
        | none =>
          let maxHops := (policy.map (·.maxHops)).getD DEFAULT_MAX_HOPS
          if maxHops < s.hops + 1 then ends (some "too many redirects")
          else .follow ⟨s.chain ++ [next], next, s.hops + 1⟩

/-- A fetch: the addresses that were requested, and how it ended. -/
structure Fetch where
  requests : List String
  outcome : Outcome

/-- `execute`, with a bound on its rounds. A request is answered by what the servers make of it and
    of those before it. -/
def execute (server : List String → Reply) (policy : Option RedirectPolicy) (url : String) :
    ℕ → List String → Loop → Option Fetch
  | 0, _, _ => none
  | rounds + 1, before, s =>
    let requests := before ++ [s.current]
    match turn p resolve policy url s (server requests) with
    | .done outcome => some ⟨requests, outcome⟩
    | .follow next => execute server policy url rounds requests next

/-- `get`. -/
def get (server : List String → Reply) (policy : Option RedirectPolicy) (rounds : ℕ)
    (url : String) : Option Fetch :=
  execute p resolve server policy url rounds [] ⟨[], url, 0⟩

end Execute

/-! ### One round -/

section Rounds

variable {p : Platform} {resolve : String → String → Option String} {policy : RedirectPolicy}
  {url : String} {s next : Loop} {reply : Reply}

/-- **What a round does that goes on**: one hop more, which is not rejected. -/
theorem of_turn_follow (h : turn p resolve (some policy) url s reply = .follow next) :
    policy.rejectionReason p s.current next.current = none ∧ ¬ policy.maxHops < s.hops + 1 ∧
      next = ⟨s.chain ++ [next.current], next.current, s.hops + 1⟩ := by
  cases reply with
  | ioException => exact absurd h (by simp [turn])
  | otherException => exact absurd h (by simp [turn])
  | response raw =>
    simp only [turn] at h
    by_cases hredirect : (!raw.isRedirect) = true
    · rw [if_pos hredirect] at h
      cases h
    rw [if_neg hredirect] at h
    by_cases hblank : (raw.location.map p.isBlank).getD true = true
    · rw [if_pos hblank] at h
      cases h
    rw [if_neg hblank] at h
    cases hresolve : resolve s.current (raw.location.getD "") with
    | none => simp only [hresolve, reduceCtorEq] at h
    | some target =>
      cases hrejection : policy.rejectionReason p s.current target with
      | some rejection => simp only [hresolve, Option.bind_some, hrejection, reduceCtorEq] at h
      | none =>
        simp only [hresolve, Option.bind_some, hrejection, Option.map_some,
          Option.getD_some] at h
        split_ifs at h with hmany
        cases h
        exact ⟨hrejection, hmany, rfl⟩

/-- A response that is no redirect is of the address of its request, and its body is the one that
    was sent. -/
theorem of_content {raw : RawResponse} {response : HttpResponse}
    (h : content url s raw = .returned (some response)) :
    response.finalUrl = s.current ∧
      ∀ body, response.body = some body → ∃ length, raw.body = some (length, body) := by
  unfold content at h
  dsimp only at h
  split_ifs at h with hfailed hdeclared
  · cases h
    exact ⟨rfl, fun body hbody => nomatch hbody⟩
  · cases h
    exact ⟨rfl, fun body hbody => nomatch hbody⟩
  · cases hbody : raw.body with
    | none => simp only [hbody, Outcome.returned.injEq, reduceCtorEq] at h
    | some content =>
      simp only [hbody, Outcome.returned.injEq, Option.some.injEq] at h
      rw [← h]
      refine ⟨rfl, fun body hsome => ⟨content.1, ?_⟩⟩
      dsimp only at hsome
      split_ifs at hsome with hlong
      cases hsome
      rfl

/-- **What a round returns that ends the fetch.** -/
theorem of_turn_done {policy : Option RedirectPolicy} {response : HttpResponse}
    (h : turn p resolve policy url s reply = .done (.returned (some response))) :
    response.finalUrl = s.current ∧ ∀ body, response.body = some body →
      ∃ raw length, reply = .response raw ∧ raw.body = some (length, body) := by
  have hanswer : ∀ {status : ℤ} {rejection : Option String},
      Turn.done (.returned (some (s.answer url status rejection))) =
        .done (.returned (some response)) →
      response.finalUrl = s.current ∧ ∀ body, response.body = some body →
        ∃ raw length, reply = .response raw ∧ raw.body = some (length, body) := by
    intro status rejection hsame
    cases hsame
    exact ⟨rfl, fun body hbody => nomatch hbody⟩
  cases reply with
  | ioException => exact absurd h (by simp [turn])
  | otherException => exact absurd h (by simp [turn])
  | response raw =>
    simp only [turn] at h
    by_cases hredirect : (!raw.isRedirect) = true
    · rw [if_pos hredirect] at h
      obtain ⟨hfinal, hbody⟩ := of_content (Turn.done.inj h)
      refine ⟨hfinal, fun body hsome => ?_⟩
      obtain ⟨length, hlength⟩ := hbody body hsome
      exact ⟨raw, length, rfl, hlength⟩
    -- a redirect that ends the fetch has no body
    rw [if_neg hredirect] at h
    by_cases hblank : (raw.location.map p.isBlank).getD true = true
    · rw [if_pos hblank] at h
      exact hanswer h
    rw [if_neg hblank] at h
    cases hresolve : resolve s.current (raw.location.getD "") with
    | none =>
      simp only [hresolve] at h
      exact hanswer h
    | some target =>
      cases hrejection : policy.bind fun policy => policy.rejectionReason p s.current target with
      | some rejection =>
        simp only [hresolve, hrejection] at h
        exact hanswer h
      | none =>
        simp only [hresolve, hrejection] at h
        split_ifs at h with hmany
        exact hanswer h

/-- **What holds before each request**: all but the first address belong to the source, `https` is
    never left, and the hops are counted. -/
structure Kept (p : Platform) (policy : RedirectPolicy) (url : String) (before : List String)
    (s : Loop) : Prop where
  chain : before ++ [s.current] = url :: s.chain
  belongs : ∀ u ∈ s.chain, Belongs p policy u
  secure : (before ++ [s.current]).Pairwise fun u v => Secure p u → Secure p v
  unread : RedirectPolicy.target p url = none → s.chain = []
  hops : s.hops.toInt = s.chain.length
  bound : s.hops.toInt ≤ policy.maxHops.toInt

theorem kept_first (hmax : 0 ≤ policy.maxHops.toInt) : Kept p policy url [] ⟨[], url, 0⟩ where
  chain := rfl
  belongs := fun _ hu => absurd hu List.not_mem_nil
  secure := List.pairwise_singleton _ _
  unread _ := rfl
  hops := rfl
  bound := hmax

theorem kept_of_follow {before : List String} (hmax : policy.maxHops.toInt < 2147483647)
    (hkept : Kept p policy url before s)
    (h : turn p resolve (some policy) url s reply = .follow next) :
    Kept p policy url (before ++ [s.current]) next ∧
      next.chain.length = s.chain.length + 1 := by
  obtain ⟨hallowed, hfew, hnext⟩ := of_turn_follow h
  obtain ⟨hbelongs, hsecure⟩ := belongs_of_rejectionReason hallowed
  have hchain : next.chain = s.chain ++ [next.current] := congrArg Loop.chain hnext
  have hhops : next.hops = s.hops + 1 := congrArg Loop.hops hnext
  have hroom : s.hops.toInt + 1 ≤ 2147483647 := by
    have hbound := hkept.bound
    omega
  have hcount : next.hops.toInt = s.hops.toInt + 1 := by
    have hcounted := hkept.hops
    have hone : Int32.toInt 1 = 1 := rfl
    rw [hhops, Int32.toInt_add, hone]
    exact Int.bmod_eq_of_le (by omega) (by omega)
  have hlength : next.chain.length = s.chain.length + 1 := by
    rw [hchain, List.length_append, List.length_singleton]
  refine ⟨⟨?_, ?_, ?_, ?_, ?_, ?_⟩, hlength⟩
  · rw [hkept.chain, hchain, List.cons_append]
  · intro u hu
    rw [hchain] at hu
    rcases List.mem_append.mp hu with hold | hnew
    · exact hkept.belongs u hold
    · rw [List.mem_singleton.mp hnew]
      exact hbelongs
  · refine List.pairwise_append.mpr ⟨hkept.secure, List.pairwise_singleton _ _, ?_⟩
    intro u hu v hv hu_secure
    rw [List.mem_singleton.mp hv]
    refine hsecure ?_
    -- the address before the last hop is the last one, or a hop led from it to the last one
    rcases List.mem_append.mp hu with hearlier | hlast
    · exact (List.pairwise_append.mp hkept.secure).2.2 u hearlier _ (List.mem_singleton_self _)
        hu_secure
    · rw [← List.mem_singleton.mp hlast]
      exact hu_secure
  · intro hunread
    -- without a hop so far the hop would start at the first address
    have hfirst : before ++ [s.current] = [] ++ [url] := by
      rw [hkept.chain, hkept.unread hunread]
      rfl
    rw [← List.singleton_inj.mp (List.append_inj_right' hfirst rfl)] at hunread
    exact absurd hunread (target_of_rejectionReason hallowed)
  · rw [hcount, hkept.hops, hlength]
    rfl
  · rw [hhops]
    exact Int32.le_iff_toInt_le.mp (Int32.not_lt.mp hfew)

end Rounds

/-! ### The loop -/

/-- **A fetch that is confined** to its source. -/
structure Confined (p : Platform) (policy : RedirectPolicy) (url : String)
    (server : List String → Reply) (fetch : Fetch) : Prop where
  first : fetch.requests.head? = some url
  belongs : ∀ u ∈ fetch.requests.tail, Belongs p policy u
  secure : fetch.requests.Pairwise fun u v => Secure p u → Secure p v
  /-- From an address that is not read no redirect is followed. -/
  unread : RedirectPolicy.target p url = none → fetch.requests = [url]
  hops : (fetch.requests.length : ℤ) ≤ policy.maxHops.toInt + 1
  /-- What it returns is of the last address, and so is the body. -/
  final : ∀ response, fetch.outcome = .returned (some response) →
    fetch.requests.getLast? = some response.finalUrl ∧ ∀ body, response.body = some body →
      ∃ raw length, server fetch.requests = .response raw ∧ raw.body = some (length, body)

section Ends

variable {p : Platform} {resolve : String → String → Option String} {policy : RedirectPolicy}
  {server : List String → Reply} {url : String}

theorem confined_of_done {before : List String} {s : Loop} {outcome : Outcome}
    (hkept : Kept p policy url before s)
    (h : turn p resolve (some policy) url s (server (before ++ [s.current])) = .done outcome) :
    Confined p policy url server ⟨before ++ [s.current], outcome⟩ where
  first := by
    rw [hkept.chain]
    rfl
  belongs := by
    rw [hkept.chain]
    exact hkept.belongs
  secure := hkept.secure
  unread hunread := by
    rw [hkept.chain, hkept.unread hunread]
  hops := by
    have hbound := hkept.bound
    rw [hkept.hops] at hbound
    rw [hkept.chain, List.length_cons]
    omega
  final := by
    rintro response rfl
    obtain ⟨hfinal, hbody⟩ := of_turn_done h
    refine ⟨?_, hbody⟩
    rw [List.getLast?_append_cons, hfinal]
    rfl

theorem execute_of_done {before : List String} {s : Loop} {outcome : Outcome}
    (h : turn p resolve (some policy) url s (server (before ++ [s.current])) = .done outcome)
    (rounds : ℕ) (hrounds : 0 < rounds) :
    execute p resolve server (some policy) url rounds before s =
      some ⟨before ++ [s.current], outcome⟩ := by
  obtain ⟨rounds, rfl⟩ := Nat.exists_eq_add_one_of_ne_zero hrounds.ne'
  rw [execute, h]

variable (resolve server) in
/-- **The loop ends**: with more rounds than hops may follow it ends, the same with any number of
    them, and the fetch is confined. The induction is on the hops that may follow. -/
theorem execute_ends (hmax : policy.maxHops.toInt < 2147483647) {left : ℕ} :
    ∀ {before : List String} {s : Loop},
    Kept p policy url before s → policy.maxHops.toInt ≤ s.hops.toInt + left →
    ∃ fetch, (∀ rounds, left < rounds →
      execute p resolve server (some policy) url rounds before s = some fetch) ∧
      Confined p policy url server fetch := by
  induction left with
  | zero =>
    intro before s hkept hleft
    cases hturn : turn p resolve (some policy) url s (server (before ++ [s.current])) with
    | done outcome =>
      exact ⟨_, execute_of_done hturn, confined_of_done hkept hturn⟩
    | follow next =>
      -- no hop is left
      obtain ⟨hnext, hlength⟩ := kept_of_follow hmax hkept hturn
      have hcounted := hkept.hops
      have hbound := hnext.bound
      rw [hnext.hops, hlength] at hbound
      omega
  | succ left ih =>
    intro before s hkept hleft
    cases hturn : turn p resolve (some policy) url s (server (before ++ [s.current])) with
    | done outcome =>
      have hround : ∀ rounds, left + 1 < rounds → 0 < rounds := by
        omega
      exact ⟨_, fun rounds hrounds => execute_of_done hturn rounds (hround rounds hrounds),
        confined_of_done hkept hturn⟩
    | follow next =>
      obtain ⟨hnext, hlength⟩ := kept_of_follow hmax hkept hturn
      have hfewer : policy.maxHops.toInt ≤ next.hops.toInt + left := by
        rw [hnext.hops, hlength]
        have hcounted := hkept.hops
        omega
      obtain ⟨fetch, hfetch, hconfined⟩ := ih hnext hfewer
      refine ⟨fetch, fun rounds hrounds => ?_, hconfined⟩
      obtain ⟨rounds, rfl⟩ := Nat.exists_eq_add_one_of_ne_zero (by omega : rounds ≠ 0)
      rw [execute, hturn]
      exact hfetch rounds (by omega)

end Ends

end SoftEther.Remote

import AuthService.ApiClient

/-!
# The CSRF bootstrap is single-flight

Whatever runs in a tab, and in whatever order: the promise that calls join is the newest bootstrap, and nobody has gone on from
it yet. A call sends its request once, and once more after a refused token and one forced bootstrap. What an unsafe call sends
carries the token of the cookie.
-/

namespace AuthService.Frontend.ApiClient

/-! ## What is said of a call -/

/-- What a call did that counts: its requests, their answers, and its forced bootstraps. -/
inductive Mark where
  | sent
  | answered (response : Option Response)
  | forced (bootstrap : Nat)
  | refreshed (bootstrap : Nat)
  deriving DecidableEq

/-- What an event is for a call. -/
def Event.mark (i : Nat) : Event → Option Mark
  | .sent j _ _ => if j = i then some .sent else none
  | .answered j response => if j = i then some (.answered response) else none
  | .awaits j bootstrap force => if j = i ∧ force = true then some (.forced bootstrap) else none
  | .resumed j bootstrap force fulfilled => if j = i ∧ force = true ∧ fulfilled = true then some (.refreshed bootstrap) else none

/-- What a call did, in order. -/
def trail (i : Nat) (log : List Event) : List Mark := log.filterMap (Event.mark i)

/-- All that a call can do: its request is sent and refused, one forced bootstrap succeeds, and the request is sent again. -/
def course (response : Response) (bootstrap : Nat) (response' : Option Response) : List Mark :=
  [.sent, .answered (some response), .forced bootstrap, .refreshed bootstrap, .sent, .answered response']

/-- A call sent its request at most twice, the second time after the first was refused for its token and exactly one forced
bootstrap that the call awaited had succeeded. -/
def SentTwiceAtMost (marks : List Mark) : Prop :=
  marks <+: [.sent, .answered none] ∨
    ∃ response bootstrap response', marks <+: course response bootstrap response' ∧
      (2 < marks.length → response.isCsrfFailure = true)

/-- The token of a request is the cookie's, and not empty. -/
def CarriesCookie (token cookie : Option Text) : Prop := ∃ t, t ≠ [] ∧ token = some t ∧ cookie = some t

/-- What holds of a tab and what has happened in it. -/
structure SingleFlight (s : Tab) (log : List Event) : Prop where
  newest : ∀ k, s.csrfBootstrapPromise = some k → k + 1 = s.bootstraps.length
  unresumed : ∀ k, s.csrfBootstrapPromise = some k → ∀ i force fulfilled, .resumed i k force fulfilled ∉ log
  sentTwiceAtMost : ∀ i, SentTwiceAtMost (trail i log)
  carriesCookie : ∀ i r, s.requests[i]? = some r → r.method.isUnsafe = true → ∀ token cookie, .sent i token cookie ∈ log →
    ServerCookie cookie → CarriesCookie token cookie

/-- What holds of a step: a caller that does not force joins the promise if there is one, and going on from an older bootstrap
leaves it alone. -/
structure JoinsFlight (s s' : Tab) (events : List Event) : Prop where
  joins : ∀ i k, .awaits i k false ∈ events → ∀ active, s.csrfBootstrapPromise = some active →
    k = active ∧ s'.bootstraps = s.bootstraps ∧ s'.csrfBootstrapPromise = some active
  keeps : ∀ i k force fulfilled, .resumed i k force fulfilled ∈ events → ∀ active, s.csrfBootstrapPromise = some active →
    k ≠ active → s'.csrfBootstrapPromise = some active

namespace CsrfAux

variable {s s' : Tab} {log events : List Event} {i : Nat} {r old : Request}

/-! ## Headers -/

/-- A character of a token is no space and may stand in a header. -/
theorem tokenChar_spec {c : Char} (h : isTokenChar c = true) :
    isHttpWhitespace c = false ∧ (c.toNat == 0 || c == '\n' || c == '\r' || decide (255 < c.toNat)) = false := by
  have hbounds : 45 ≤ c.toNat ∧ c.toNat ≤ 122 := by
    simp only [isTokenChar, Char.isAlphanum, Char.isAlpha, Char.isUpper, Char.isLower, Char.isDigit, Bool.or_eq_true,
      Bool.and_eq_true, Bool.decide_and, decide_eq_true_eq, beq_iff_eq, ge_iff_le, UInt32.le_iff_toNat_le] at h
    rcases h with (((⟨hlow, hhigh⟩ | ⟨hlow, hhigh⟩) | ⟨hlow, hhigh⟩) | rfl) | rfl
    · exact ⟨Nat.le_trans (by decide) hlow, Nat.le_trans hhigh (by decide)⟩
    · exact ⟨Nat.le_trans (by decide) hlow, Nat.le_trans hhigh (by decide)⟩
    · exact ⟨Nat.le_trans (by decide) hlow, Nat.le_trans hhigh (by decide)⟩
    · decide
    · decide
  have hne : ∀ d : Char, d.toNat < 45 → (c == d) = false := by
    intro d hd
    rw [beq_eq_false_iff_ne]
    rintro rfl
    omega
  constructor
  · rw [isHttpWhitespace, hne '\t' (by decide), hne '\n' (by decide), hne '\r' (by decide), hne ' ' (by decide)]
    rfl
  · rw [hne '\n' (by decide), hne '\r' (by decide)]
    simp
    omega

/-- A token is stored as it is. -/
theorem headerValue_token {t : Text} (h : IsToken t) : headerValue t = some t := by
  have hkeep : ∀ s : Text, (∀ c ∈ s, isTokenChar c = true) → s.dropWhile isHttpWhitespace = s := by
    intro s hs
    cases s with
    | nil => rfl
    | cons c s => exact List.dropWhile_cons_of_neg (by simp [(tokenChar_spec (hs c (List.mem_cons_self ..))).1])
  have hstripped : ((t.dropWhile isHttpWhitespace).reverse.dropWhile isHttpWhitespace).reverse = t := by
    rw [hkeep t h, hkeep t.reverse fun c hc => h c (List.mem_reverse.1 hc), List.reverse_reverse]
  rw [headerValue, hstripped]
  refine if_neg ?_
  rw [Bool.not_eq_true, List.any_eq_false]
  intro c hc
  rw [(tokenChar_spec (h c hc)).2]
  nofun

/-! ## Trails -/

/-- What is done later comes later. -/
theorem trail_append (i : Nat) (log events : List Event) : trail i (log ++ events) = trail i log ++ trail i events :=
  List.filterMap_append

/-- A request that is sent is on the trail of its call. -/
theorem sent_mem_trail {token cookie : Option Text} (h : .sent i token cookie ∈ log) : .sent ∈ trail i log :=
  List.mem_filterMap.2 ⟨_, h, if_pos rfl⟩

/-- The call has nothing to wait for but the bootstraps that others may share. -/
def Phase.IsPreparing : Phase → Prop
  | .called | .ensured | .awaitingBootstrap _ false => True
  | _ => False

/-- What a call has done before it sends its request, for the first or the second time. -/
inductive Ready : Bool → List Mark → Prop
  | first : Ready false []
  | again {response : Response} {k : Nat} (h : response.isCsrfFailure = true) :
    Ready true [.sent, .answered (some response), .forced k, .refreshed k]

/-- What a call has done when it is in a phase. -/
inductive Course : Bool → Phase → List Mark → Prop
  | preparing {b : Bool} {p : Phase} {marks : List Mark} (hp : Phase.IsPreparing p) (h : Ready b marks) : Course b p marks
  | sent {b : Bool} {marks : List Mark} (h : Ready b marks) : Course b .sent (marks ++ [.sent])
  | answered {b : Bool} {marks : List Mark} (h : Ready b marks) (response : Option Response) :
    Course b (.answered response) (marks ++ [.sent, .answered response])
  | forced {response : Response} {k : Nat} (h : response.isCsrfFailure = true) :
    Course false (.awaitingBootstrap k true) [.sent, .answered (some response), .forced k]
  | refreshed {response : Response} {k : Nat} (h : response.isCsrfFailure = true) :
    Course false .refreshed [.sent, .answered (some response), .forced k, .refreshed k]
  | settled {b : Bool} {result : Except Rejection Unit} {marks : List Mark} (h : SentTwiceAtMost marks) :
    Course b (.settled result) marks

/-- A part of the whole course. -/
theorem sentTwice_of_course {response : Response} {k : Nat} (response' : Option Response) {marks : List Mark}
    (h : response.isCsrfFailure = true) (hmarks : marks <+: course response k response') : SentTwiceAtMost marks :=
  Or.inr ⟨response, k, response', hmarks, fun _ => h⟩

/-- A call that is about to send has sent once at most. -/
theorem Ready.sentTwice {b : Bool} {marks : List Mark} (h : Ready b marks) : SentTwiceAtMost marks := by
  cases h with
  | first => exact Or.inl (List.nil_prefix)
  | again h => exact sentTwice_of_course none h ⟨[.sent, .answered none], rfl⟩

/-- A call that is answered has sent twice at most. -/
theorem sentTwice_answered {b : Bool} {marks : List Mark} (h : Ready b marks) (response : Option Response) :
    SentTwiceAtMost (marks ++ [.sent, .answered response]) := by
  cases h with
  | first =>
    cases response with
    | none => exact Or.inl (List.prefix_refl _)
    | some response => exact Or.inr ⟨response, 0, none, ⟨[.forced 0, .refreshed 0, .sent, .answered none], rfl⟩, fun h => by
        cases h with
        | step h => cases h with
          | step h => cases h⟩
  | again h => exact sentTwice_of_course response h ⟨[], rfl⟩

/-- A call in any phase has sent twice at most. -/
theorem Course.sentTwice {b : Bool} {p : Phase} {marks : List Mark} (h : Course b p marks) : SentTwiceAtMost marks := by
  cases h with
  | preparing hp h => exact h.sentTwice
  | sent h =>
    rcases h with _ | h
    · exact Or.inl ⟨[.answered none], rfl⟩
    · exact sentTwice_of_course none h ⟨[.answered none], rfl⟩
  | answered h response => exact sentTwice_answered h response
  | forced h => exact sentTwice_of_course none h ⟨[.refreshed _, .sent, .answered none], rfl⟩
  | refreshed h => exact sentTwice_of_course none h ⟨[.sent, .answered none], rfl⟩
  | settled h => exact h

/-! ## The invariant -/

/-- What holds of every tab. -/
structure Inv (s : Tab) (log : List Event) : Prop where
  newest : ∀ k, s.csrfBootstrapPromise = some k → k + 1 = s.bootstraps.length
  unresumed : ∀ k, s.csrfBootstrapPromise = some k → ∀ i force fulfilled, .resumed i k force fulfilled ∉ log
  known : ∀ i k force fulfilled, .resumed i k force fulfilled ∈ log → k < s.bootstraps.length
  awaited : ∀ (i : Nat) (r : Request) k force, s.requests[i]? = some r → r.phase = .awaitingBootstrap k force → k < s.bootstraps.length
  course : ∀ i r, s.requests[i]? = some r → Course r.hasRetriedCsrf r.phase (trail i log)
  strangers : ∀ i, s.requests.length ≤ i → trail i log = []
  carries : ∀ i r, s.requests[i]? = some r → r.method.isUnsafe = true → ∀ token cookie, .sent i token cookie ∈ log →
    ServerCookie cookie → CarriesCookie token cookie

/-- The invariant gives what is said of a tab. -/
theorem Inv.singleFlight (h : Inv s log) : SingleFlight s log where
  newest := h.newest
  unresumed := h.unresumed
  carriesCookie := h.carries
  sentTwiceAtMost i := by
    cases hr : s.requests[i]? with
    | none =>
      rw [h.strangers i (List.getElem?_eq_none_iff.1 hr)]
      exact Or.inl List.nil_prefix
    | some r => exact (h.course i r hr).sentTwice

/-- One call moves. -/
theorem Inv.update (h : Inv s log) (hold : s.requests[i]? = some old) (hmethod : r.method = old.method) {p : Option Nat}
    {bootstraps : List (Option Bool)} (hnewest : ∀ k, p = some k → k + 1 = bootstraps.length)
    (hunresumed : ∀ k, p = some k → ∀ j force fulfilled, .resumed j k force fulfilled ∉ log ++ events)
    (hgrow : s.bootstraps.length ≤ bootstraps.length)
    (hknown : ∀ j k force fulfilled, .resumed j k force fulfilled ∈ events → k < bootstraps.length)
    (hawaited : ∀ k force, r.phase = .awaitingBootstrap k force → k < bootstraps.length)
    (hothers : ∀ j, j ≠ i → trail j events = []) (hcourse : Course r.hasRetriedCsrf r.phase (trail i log ++ trail i events))
    (hcarries : old.method.isUnsafe = true → ∀ token cookie, .sent i token cookie ∈ events → ServerCookie cookie →
      CarriesCookie token cookie) :
    Inv ⟨s.cookie, p, bootstraps, s.requests.set i r⟩ (log ++ events) := by
  have hlt : i < s.requests.length := (List.getElem?_eq_some_iff.1 hold).1
  have hself : (s.requests.set i r)[i]? = some r := List.getElem?_set_self hlt
  have hother : ∀ {j}, j ≠ i → (s.requests.set i r)[j]? = s.requests[j]? := fun hne => List.getElem?_set_ne hne.symm
  have htrail : ∀ {j}, j ≠ i → trail j (log ++ events) = trail j log := fun hne => by
    rw [trail_append, hothers _ hne, List.append_nil]
  refine ⟨hnewest, hunresumed, fun j k force fulfilled hmem => ?_, fun j r' k force hr' hphase => ?_,
    fun j r' hr' => ?_, fun j hj => ?_, fun j r' hr' hunsafe token cookie hmem => ?_⟩
  · rcases List.mem_append.1 hmem with hmem | hmem
    · exact (h.known j k force fulfilled hmem).trans_le hgrow
    · exact hknown j k force fulfilled hmem
  · by_cases hj : j = i
    · subst hj
      obtain rfl := Option.some.inj (hself.symm.trans hr')
      exact hawaited k force hphase
    · rw [hother hj] at hr'
      exact (h.awaited j r' k force hr' hphase).trans_le hgrow
  · by_cases hj : j = i
    · subst hj
      obtain rfl := Option.some.inj (hself.symm.trans hr')
      rw [trail_append]
      exact hcourse
    · rw [hother hj] at hr'
      rw [htrail hj]
      exact h.course j r' hr'
  · rw [List.length_set] at hj
    rw [htrail (by omega)]
    exact h.strangers j hj
  · by_cases hj : j = i
    · subst hj
      obtain rfl := Option.some.inj (hself.symm.trans hr')
      rw [hmethod] at hunsafe
      rcases List.mem_append.1 hmem with hmem | hmem
      · exact h.carries j old hold hunsafe token cookie hmem
      · exact hcarries hunsafe token cookie hmem
    · rw [hother hj] at hr'
      have hnone : Event.sent j token cookie ∉ events := fun hmem => by
        have := sent_mem_trail hmem
        rw [hothers j hj] at this
        cases this
      exact h.carries j r' hr' hunsafe token cookie ((List.mem_append.1 hmem).resolve_right hnone)

/-! ## Calls go on -/

/-- A call goes on and does nothing else. -/
theorem Inv.goOn (h : Inv s log) (hold : s.requests[i]? = some old) (hmethod : r.method = old.method) {phase : Phase}
    (hphase : ∀ k force, phase ≠ .awaitingBootstrap k force) (hcourse : Course r.hasRetriedCsrf phase (trail i log)) :
    Inv (s.goOn i r phase) (log ++ []) := by
  refine h.update (r := { r with phase := phase }) hold hmethod h.newest ?_ (Nat.le_refl _) nofun
    (fun k force hawait => absurd hawait (hphase k force)) (fun _ _ => rfl) ?_ nofun
  · rw [List.append_nil]
    exact h.unresumed
  · rw [show trail i [] = [] from rfl, List.append_nil]
    exact hcourse

/-- An event of one call is on the trail of no other. -/
theorem trail_other {e : Event} {j : Nat} (h : ∀ j, j ≠ i → Event.mark j e = none) (hj : j ≠ i) : trail j [e] = [] := by
  rw [trail, List.filterMap_cons_none (h j hj)]
  rfl

/-- A bootstrap is awaited, an old one or a new one. -/
theorem Inv.bootstrap (h : Inv s log) (hold : s.requests[i]? = some old) (hmethod : r.method = old.method) (force : Bool)
    (hcourse : ∀ k, Course r.hasRetriedCsrf (.awaitingBootstrap k force) (trail i log ++ trail i [.awaits i k force])) :
    Inv (bootstrapCsrfToken s i r force).2 (log ++ (bootstrapCsrfToken s i r force).1) := by
  have hothers : ∀ k j, j ≠ i → trail j [.awaits i k force] = [] := fun k j hj =>
    trail_other (fun j hj => if_neg fun h => hj h.1.symm) hj
  have hevent : ∀ {k j k' force' fulfilled}, Event.resumed j k' force' fulfilled ∉ [.awaits i k force] := nofun
  unfold bootstrapCsrfToken
  cases hactive : (if force then none else s.csrfBootstrapPromise) with
  | some active =>
    have hpromise : s.csrfBootstrapPromise = some active := by
      cases force with
      | true => cases hactive
      | false => exact hactive
    have hlt : active < s.bootstraps.length := by
      have := h.newest active hpromise
      omega
    refine h.update (r := { r with phase := .awaitingBootstrap active force }) hold hmethod h.newest ?_ (Nat.le_refl _) nofun ?_
      (hothers active) (hcourse active) nofun
    · intro k hk j force' fulfilled hmem
      exact (List.mem_append.1 hmem).elim (h.unresumed k hk j force' fulfilled) nofun
    · rintro k force' hawait
      cases hawait
      exact hlt
  | none =>
    refine h.update (r := { r with phase := .awaitingBootstrap s.bootstraps.length force }) hold hmethod ?_ ?_ ?_ nofun ?_
      (hothers _) (hcourse _) nofun
    · intro k hk
      rw [← Option.some.inj hk, List.length_append]
      rfl
    · intro k hk j force' fulfilled hmem
      -- nobody has gone on from a bootstrap that was not there
      rcases List.mem_append.1 hmem with hmem | hmem
      · have := h.known j k force' fulfilled hmem
        rw [← Option.some.inj hk] at this
        exact Nat.lt_irrefl _ this
      · cases hmem with
        | tail _ hmem => cases hmem
    · rw [List.length_append]
      omega
    · rintro k force' hawait
      cases hawait
      rw [List.length_append]
      exact Nat.lt_succ_self _

/-- The request is sent. -/
theorem Inv.fetchInput (h : Inv s log) (hold : s.requests[i]? = some old) (hmethod : r.method = old.method)
    {token : Option Text} (hready : Ready r.hasRetriedCsrf (trail i log))
    (hcarries : old.method.isUnsafe = true → ServerCookie s.cookie → CarriesCookie token s.cookie) :
    Inv (fetchInput s i r token).2 (log ++ (fetchInput s i r token).1) := by
  unfold ApiClient.fetchInput
  refine h.update (r := { r with phase := .sent }) hold hmethod h.newest ?_ (Nat.le_refl _) nofun nofun
    (fun j hj => trail_other (fun j hj => if_neg fun h => hj h.symm) hj) ?_ ?_
  · intro k hk j force fulfilled hmem
    exact (List.mem_append.1 hmem).elim (h.unresumed k hk j force fulfilled) nofun
  · rw [show trail i [.sent i token s.cookie] = [.sent] by simp [trail, Event.mark]]
    exact .sent hready
  · intro hunsafe token' cookie hmem
    rw [List.mem_singleton] at hmem
    cases hmem
    exact hcarries hunsafe

/-- A call starts its request. -/
theorem Inv.request (h : Inv s log) (hold : s.requests[i]? = some old) (hmethod : r.method = old.method)
    (hready : Ready r.hasRetriedCsrf (trail i log)) :
    Inv (request s i r).2 (log ++ (request s i r).1) := by
  unfold ApiClient.request
  split
  · unfold ensureCsrfToken
    split
    · refine h.bootstrap hold hmethod false fun k => ?_
      rw [show trail i [.awaits i k false] = [] by simp [trail, Event.mark], List.append_nil]
      exact .preparing trivial hready
    · exact h.goOn hold hmethod nofun (.preparing trivial hready)
  · rename_i hsafe
    exact h.fetchInput hold hmethod hready fun hunsafe => absurd (hmethod ▸ hunsafe) hsafe

/-- A call sends with the token of the cookie. -/
theorem Inv.sendWithToken (h : Inv s log) (hold : s.requests[i]? = some old) (hmethod : r.method = old.method)
    (hready : Ready r.hasRetriedCsrf (trail i log)) :
    Inv (sendWithToken s i r).2 (log ++ (sendWithToken s i r).1) := by
  unfold ApiClient.sendWithToken
  cases hcookie : s.cookie.filter (· ≠ []) with
  | none => exact h.goOn hold hmethod nofun (.settled hready.sentTwice)
  | some t =>
    obtain ⟨hmem, hne⟩ := Option.filter_eq_some_iff.1 hcookie
    dsimp only
    cases hvalue : headerValue t with
    | none => exact h.goOn hold hmethod nofun (.settled hready.sentTwice)
    | some value =>
      refine h.fetchInput hold hmethod hready fun _ hserver => ⟨t, of_decide_eq_true hne, ?_, hmem⟩
      rw [← hvalue]
      exact headerValue_token (hserver t hmem)

/-- A call handles its answer. -/
theorem Inv.handleResponse (h : Inv s log) (hold : s.requests[i]? = some old) (hmethod : r.method = old.method)
    {response : Option Response} {marks : List Mark} (hready : Ready r.hasRetriedCsrf marks)
    (htrail : trail i log = marks ++ [.sent, .answered response]) :
    Inv (handleResponse s i r response).2 (log ++ (handleResponse s i r response).1) := by
  have hended : ∀ result, Course r.hasRetriedCsrf (.settled result) (trail i log) := fun result =>
    htrail ▸ .settled (sentTwice_answered hready response)
  unfold ApiClient.handleResponse
  cases response with
  | none => exact h.goOn hold hmethod nofun (hended _)
  | some response =>
    dsimp only
    split
    · split
      · exact h.goOn hold hmethod nofun (hended _)
      · exact h.goOn hold hmethod nofun (hended _)
    · split
      · rename_i hcsrf
        rw [Bool.and_eq_true, Bool.and_eq_true, Bool.not_eq_true'] at hcsrf
        obtain ⟨⟨-, hfirst⟩, hcsrf⟩ := hcsrf
        rw [hfirst] at hready
        cases hready
        refine h.bootstrap hold hmethod true fun k => ?_
        rw [htrail, hfirst, show trail i [.awaits i k true] = [.forced k] by simp [trail, Event.mark]]
        exact .forced hcsrf
      · exact h.goOn hold hmethod nofun (hended _)

/-- A call goes on from its bootstrap: the promise is dropped if it was that one, and nobody went on from another. -/
theorem Inv.afterBootstrap (h : Inv s log) (hr : s.requests[i]? = some r) {active : Nat} {force fulfilled : Bool}
    (hphase : r.phase = .awaitingBootstrap active force) :
    Inv (afterBootstrap s i r active force fulfilled).2 (log ++ (afterBootstrap s i r active force fulfilled).1) := by
  have hlt := h.awaited i r active force hr hphase
  have hcourse := h.course i r hr
  rw [hphase] at hcourse
  have hothers : ∀ j, j ≠ i → trail j [.resumed i active force fulfilled] = [] := fun j hj =>
    trail_other (fun j hj => if_neg fun h => hj h.1.symm) hj
  unfold ApiClient.afterBootstrap
  have hgoes : ∀ phase : Phase, (∀ k force, phase ≠ .awaitingBootstrap k force) →
      Course r.hasRetriedCsrf phase (trail i log ++ trail i [.resumed i active force fulfilled]) →
      Inv ((if s.csrfBootstrapPromise = some active then { s with csrfBootstrapPromise := none } else s).goOn i r phase)
        (log ++ [.resumed i active force fulfilled]) := by
    intro phase hphase hcourse
    have hknown : ∀ j k force' fulfilled', Event.resumed j k force' fulfilled' ∈ [.resumed i active force fulfilled] →
        k < s.bootstraps.length := by
      intro j k force' fulfilled' hmem
      rw [List.mem_singleton] at hmem
      cases hmem
      exact hlt
    split
    · exact h.update (r := { r with phase := phase }) hr rfl nofun nofun (Nat.le_refl _) hknown
        (fun k force hawait => absurd hawait (hphase k force)) hothers hcourse nofun
    · rename_i hne
      refine h.update (r := { r with phase := phase }) hr rfl h.newest ?_ (Nat.le_refl _) hknown
        (fun k force hawait => absurd hawait (hphase k force)) hothers hcourse nofun
      intro k hk j force' fulfilled' hmem
      rcases List.mem_append.1 hmem with hmem | hmem
      · exact h.unresumed k hk j force' fulfilled' hmem
      · rw [List.mem_singleton] at hmem
        cases hmem
        exact hne hk
  refine hgoes _ ?_ ?_
  · intro k force'
    split
    · nofun
    · split <;> nofun
  · cases fulfilled with
    | false =>
      rw [show trail i [.resumed i active force false] = [] by simp [trail, Event.mark], List.append_nil]
      exact .settled hcourse.sentTwice
    | true =>
      cases force with
      | false =>
        rw [show trail i [.resumed i active false true] = [] by simp [trail, Event.mark], List.append_nil]
        generalize r.hasRetriedCsrf = retried at hcourse ⊢
        cases hcourse with
        | preparing hp hready => exact .preparing trivial hready
      | true =>
        rw [show trail i [.resumed i active true true] = [.refreshed active] by simp [trail, Event.mark]]
        generalize trail i log = marks at hcourse ⊢
        generalize r.hasRetriedCsrf = retried at hcourse ⊢
        cases hcourse with
        | preparing hp hready => exact absurd hp id
        | forced hcsrf => exact .refreshed hcsrf

/-- A call goes on from whatever it awaits. -/
theorem Inv.resume (h : Inv s log) (hr : s.requests[i]? = some r) (hresume : resume s i r = some (events, s')) :
    Inv s' (log ++ events) := by
  have hcourse := h.course i r hr
  obtain ⟨method, retried, phase⟩ := r
  unfold ApiClient.resume at hresume
  cases phase with
  | called => cases hresume
  | sent => cases hresume
  | settled result => cases hresume
  | awaitingBootstrap active force =>
    dsimp only at hresume
    split at hresume
    · obtain ⟨rfl, rfl⟩ := Prod.mk.inj (Option.some.inj hresume)
      exact h.afterBootstrap hr rfl
    · cases hresume
  | ensured =>
    obtain ⟨rfl, rfl⟩ := Prod.mk.inj (Option.some.inj hresume)
    cases hcourse with
    | preparing hp hready => exact h.sendWithToken hr rfl hready
  | answered response =>
    obtain ⟨rfl, rfl⟩ := Prod.mk.inj (Option.some.inj hresume)
    generalize htrail : trail i log = marks at hcourse
    cases hcourse with
    | preparing hp hready => exact absurd hp id
    | answered hready response => exact h.handleResponse hr rfl hready htrail
  | refreshed =>
    obtain ⟨rfl, rfl⟩ := Prod.mk.inj (Option.some.inj hresume)
    generalize htrail : trail i log = marks at hcourse
    cases hcourse with
    | preparing hp hready => exact absurd hp id
    | refreshed hcsrf => exact h.request hr rfl (htrail ▸ .again hcsrf)

/-! ## Steps -/

/-- A new call starts. -/
theorem Inv.call (h : Inv s log) (method : Method) :
    Inv { s with requests := s.requests ++ [⟨method, false, .called⟩] } log := by
  have hcases : ∀ {j r}, (s.requests ++ [⟨method, false, .called⟩])[j]? = some r →
      s.requests[j]? = some r ∨ j = s.requests.length ∧ r = ⟨method, false, .called⟩ := by
    intro j r hr
    rcases Nat.lt_trichotomy j s.requests.length with hj | rfl | hj
    · exact Or.inl (List.getElem?_append_left hj ▸ hr)
    · rw [List.getElem?_concat_length] at hr
      exact Or.inr ⟨rfl, (Option.some.inj hr).symm⟩
    · rw [List.getElem?_eq_none (by rw [List.length_append, List.length_singleton]; omega)] at hr
      cases hr
  refine ⟨h.newest, h.unresumed, h.known, fun j r k force hr hphase => ?_, fun j r hr => ?_, fun j hj => ?_,
    fun j r hr hunsafe token cookie hmem => ?_⟩
  · rcases hcases hr with hr | ⟨-, rfl⟩
    · exact h.awaited j r k force hr hphase
    · cases hphase
  · rcases hcases hr with hr | ⟨rfl, rfl⟩
    · exact h.course j r hr
    · rw [h.strangers _ (Nat.le_refl _)]
      exact .preparing trivial .first
  · rw [List.length_append] at hj
    exact h.strangers j (Nat.le_of_add_right_le hj)
  · rcases hcases hr with hr | ⟨rfl, rfl⟩
    · exact h.carries j r hr hunsafe token cookie hmem
    · have := sent_mem_trail hmem
      rw [h.strangers _ (Nat.le_refl _)] at this
      cases this

/-- An answer arrives. -/
theorem Inv.answer (h : Inv s log) (hr : s.requests[i]? = some r) (hphase : r.phase = .sent) (response : Option Response) :
    Inv (s.goOn i r (.answered response)) (log ++ [.answered i response]) := by
  refine h.update (r := { r with phase := .answered response }) hr rfl h.newest ?_ (Nat.le_refl _) nofun nofun
    (fun j hj => trail_other (fun j hj => if_neg fun h => hj h.symm) hj) ?_ nofun
  · intro k hk j force fulfilled hmem
    exact (List.mem_append.1 hmem).elim (h.unresumed k hk j force fulfilled) nofun
  · have hcourse := h.course i r hr
    rw [hphase] at hcourse
    rw [show trail i [.answered i response] = [.answered response] by simp [trail, Event.mark]]
    generalize trail i log = marks at hcourse ⊢
    change Course r.hasRetriedCsrf (.answered response) (marks ++ [.answered response])
    generalize r.hasRetriedCsrf = retried at hcourse ⊢
    cases hcourse with
    | preparing hp hready => exact absurd hp id
    | sent hready =>
      rw [List.append_assoc]
      exact .answered hready response

/-- Every step keeps the invariant. -/
theorem Inv.step (h : Inv s log) {a : Action} (hstep : step s a = some (events, s')) : Inv s' (log ++ events) := by
  cases a with
  | call method =>
    obtain ⟨rfl, rfl⟩ := Prod.mk.inj (Option.some.inj hstep)
    refine (h.call method).request List.getElem?_concat_length rfl ?_
    rw [h.strangers _ (Nat.le_refl _)]
    exact .first
  | resume i =>
    unfold ApiClient.step at hstep
    cases hr : s.requests[i]? with
    | none =>
      simp only [hr] at hstep
      cases hstep
    | some r =>
      simp only [hr] at hstep
      exact h.resume hr hstep
  | settle bootstrap fulfilled =>
    unfold ApiClient.step at hstep
    dsimp only at hstep
    split at hstep
    · obtain ⟨rfl, rfl⟩ := Prod.mk.inj (Option.some.inj hstep)
      rw [List.append_nil]
      refine ⟨?_, h.unresumed, ?_, ?_, h.course, h.strangers, h.carries⟩
      · simpa only [List.length_set] using h.newest
      · simpa only [List.length_set] using h.known
      · simpa only [List.length_set] using h.awaited
    · cases hstep
  | answer i response =>
    unfold ApiClient.step at hstep
    dsimp only at hstep
    split at hstep
    · rename_i hr
      obtain ⟨rfl, rfl⟩ := Prod.mk.inj (Option.some.inj hstep)
      exact h.answer hr rfl response
    · cases hstep
  | setCookie value =>
    obtain ⟨rfl, rfl⟩ := Prod.mk.inj (Option.some.inj hstep)
    rw [List.append_nil]
    exact ⟨h.newest, h.unresumed, h.known, h.awaited, h.course, h.strangers, h.carries⟩

/-- The invariant holds in every tab. -/
theorem inv_reaches (h : Reaches s log) : Inv s log := by
  induction h with
  | opened cookie => exact ⟨nofun, nofun, nofun, nofun, nofun, fun i _ => rfl, nofun⟩
  | step h hstep ih => exact ih.step hstep

/-! ## Joining -/

/-- A step after which no call awaits a bootstrap and none went on from one. -/
theorem joins_of_quiet (hawaits : ∀ i k, .awaits i k false ∉ events)
    (hresumed : ∀ i k force fulfilled, .resumed i k force fulfilled ∉ events) : JoinsFlight s s' events where
  joins i k hmem := absurd hmem (hawaits i k)
  keeps i k force fulfilled hmem := absurd hmem (hresumed i k force fulfilled)

/-- A bootstrap joins the promise or replaces it. -/
theorem joins_bootstrap (s : Tab) (i : Nat) (r : Request) (force : Bool) :
    JoinsFlight s (bootstrapCsrfToken s i r force).2 (bootstrapCsrfToken s i r force).1 := by
  unfold bootstrapCsrfToken
  cases force with
  | true =>
    refine joins_of_quiet ?_ nofun
    intro j k hmem
    cases hmem with
    | tail _ hmem => cases hmem
  | false =>
    cases hactive : s.csrfBootstrapPromise with
    | none => exact ⟨fun _ _ _ active h => absurd (hactive.symm.trans h) nofun, nofun⟩
    | some promise =>
      refine ⟨fun j k hmem active h => ?_, nofun⟩
      obtain rfl := Option.some.inj (hactive.symm.trans h)
      cases hmem with
      | head => exact ⟨rfl, rfl, h⟩
      | tail _ hmem => cases hmem

/-- Sending a request awaits no bootstrap. -/
theorem joins_fetchInput (s : Tab) (i : Nat) (r : Request) (token : Option Text) :
    JoinsFlight s (fetchInput s i r token).2 (fetchInput s i r token).1 := by
  refine joins_of_quiet ?_ ?_
  · intro j k h
    cases h with
    | tail _ h => cases h
  · intro j k force fulfilled h
    cases h with
    | tail _ h => cases h

/-- A call that starts joins the promise. -/
theorem joins_request (s : Tab) (i : Nat) (r : Request) :
    JoinsFlight s (request s i r).2 (request s i r).1 := by
  unfold request
  split
  · unfold ensureCsrfToken
    split
    · exact joins_bootstrap s i r false
    · exact joins_of_quiet nofun nofun
  · exact joins_fetchInput s i r none

/-- Sending with a token awaits no bootstrap. -/
theorem joins_sendWithToken (s : Tab) (i : Nat) (r : Request) :
    JoinsFlight s (sendWithToken s i r).2 (sendWithToken s i r).1 := by
  unfold sendWithToken
  split
  · exact joins_of_quiet nofun nofun
  · split
    · exact joins_of_quiet nofun nofun
    · exact joins_fetchInput ..

/-- An answer may force a bootstrap. -/
theorem joins_handleResponse (s : Tab) (i : Nat) (r : Request) (response : Option Response) :
    JoinsFlight s (handleResponse s i r response).2 (handleResponse s i r response).1 := by
  unfold handleResponse
  split
  · exact joins_of_quiet nofun nofun
  · split
    · split <;> exact joins_of_quiet nofun nofun
    · split
      · exact joins_bootstrap s i r true
      · exact joins_of_quiet nofun nofun

/-- A call that goes on leaves a newer promise. -/
theorem joins_afterBootstrap (s : Tab) (i : Nat) (r : Request) (k : Nat) (force fulfilled : Bool) :
    JoinsFlight s (afterBootstrap s i r k force fulfilled).2 (afterBootstrap s i r k force fulfilled).1 := by
  refine ⟨fun j k' h => ?_, fun j k' force' fulfilled' h active hactive hne => ?_⟩
  · cases h with
    | tail _ h => cases h
  · unfold afterBootstrap at h ⊢
    rw [List.mem_singleton] at h
    cases h
    have hother : ¬ s.csrfBootstrapPromise = some k := fun h => hne (Option.some.inj (h.symm.trans hactive))
    rw [if_neg hother]
    exact hactive

/-- A call that goes on joins or leaves the promise. -/
theorem joins_resume (hresume : resume s i r = some (events, s')) : JoinsFlight s s' events := by
  obtain ⟨method, retried, phase⟩ := r
  cases phase with
  | called => cases hresume
  | sent => cases hresume
  | settled result => cases hresume
  | awaitingBootstrap active force =>
    unfold resume at hresume
    dsimp only at hresume
    split at hresume
    · obtain ⟨rfl, rfl⟩ := Prod.mk.inj (Option.some.inj hresume)
      exact joins_afterBootstrap ..
    · cases hresume
  | ensured =>
    obtain ⟨rfl, rfl⟩ := Prod.mk.inj (Option.some.inj hresume)
    exact joins_sendWithToken ..
  | answered response =>
    obtain ⟨rfl, rfl⟩ := Prod.mk.inj (Option.some.inj hresume)
    exact joins_handleResponse ..
  | refreshed =>
    obtain ⟨rfl, rfl⟩ := Prod.mk.inj (Option.some.inj hresume)
    exact joins_request ..

/-- Every step joins or leaves the promise. -/
theorem joins_step {a : Action} (hstep : step s a = some (events, s')) : JoinsFlight s s' events := by
  unfold step at hstep
  cases a with
  | call method =>
    obtain ⟨rfl, rfl⟩ := Prod.mk.inj (Option.some.inj hstep)
    obtain ⟨hjoins, hkeeps⟩ := joins_request { s with requests := s.requests ++ [⟨method, false, .called⟩] } s.requests.length
      ⟨method, false, .called⟩
    exact ⟨hjoins, hkeeps⟩
  | resume i =>
    cases hr : s.requests[i]? with
    | none =>
      simp only [hr] at hstep
      cases hstep
    | some r =>
      simp only [hr] at hstep
      exact joins_resume hstep
  | settle bootstrap fulfilled =>
    dsimp only at hstep
    split at hstep
    · obtain ⟨rfl, rfl⟩ := Prod.mk.inj (Option.some.inj hstep)
      exact joins_of_quiet nofun nofun
    · cases hstep
  | answer i response =>
    dsimp only at hstep
    split at hstep
    · obtain ⟨rfl, rfl⟩ := Prod.mk.inj (Option.some.inj hstep)
      exact joins_of_quiet (fun _ _ h => by cases h with | tail _ h => cases h)
        (fun _ _ _ _ h => by cases h with | tail _ h => cases h)
    · cases hstep
  | setCookie value =>
    obtain ⟨rfl, rfl⟩ := Prod.mk.inj (Option.some.inj hstep)
    exact joins_of_quiet nofun nofun

end CsrfAux

open CsrfAux

/-- In every run of a tab the promise is the newest bootstrap and has no waiter that went on, callers join it, an older
bootstrap does not end it, no call sends its request a third time, and what an unsafe call sends carries the cookie that the
server has set. -/
theorem bootstrap_single_flight {s : Tab} {log : List Event} (h : Reaches s log) :
    SingleFlight s log ∧ ∀ (a : Action) (events : List Event) (s' : Tab), step s a = some (events, s') →
      JoinsFlight s s' events ∧ SingleFlight s' (log ++ events) :=
  have hinv := inv_reaches h
  ⟨hinv.singleFlight, fun _ _ _ hstep => ⟨joins_step hstep, (hinv.step hstep).singleFlight⟩⟩

namespace Refused

/-- The answer to a request with an old token. -/
def response : Response := ⟨403, some (some "csrf_validation_failed".toList)⟩

/-- Two calls wait for one bootstrap, and send their requests with its token. The first is refused and forces a bootstrap, and
the cookie is gone. -/
def actions : List Action :=
  [.call .post, .call .put, .settle 0 true, .setCookie (some "t".toList), .resume 0, .resume 1, .resume 0, .resume 1,
    .answer 0 (some response), .resume 0, .setCookie none]

/-- What the two calls have done then. -/
def log : List Event :=
  [.awaits 0 0 false, .awaits 1 0 false, .resumed 0 0 false true, .resumed 1 0 false true, .sent 0 (some "t".toList) (some "t".toList),
    .sent 1 (some "t".toList) (some "t".toList), .answered 0 (some response), .awaits 0 1 true]

end Refused

open Refused in
/-- Two calls share a bootstrap, one of them is refused and forces another, and a third call joins that one. -/
theorem bootstrap_single_flight_forced : ∃ s s', steps actions ⟨none, none, [], []⟩ [] = some (s, log) ∧
    step s (.call .delete) = some ([.awaits 2 1 false], s') ∧ s.csrfBootstrapPromise = some 1 ∧
    JoinsFlight s s' [.awaits 2 1 false] ∧ SingleFlight s' (log ++ [.awaits 2 1 false]) := by
  have hlog : (steps actions ⟨none, none, [], []⟩ []).map Prod.snd = some log := by decide
  have hpromise : (steps actions ⟨none, none, [], []⟩ []).map (fun p => p.1.csrfBootstrapPromise) = some (some 1) := by decide
  have hcall : (steps actions ⟨none, none, [], []⟩ []).map (fun p => (step p.1 (.call .delete)).map Prod.fst) =
      some (some [.awaits 2 1 false]) := by decide
  obtain ⟨⟨s, _⟩, hs, rfl⟩ := Option.map_eq_some_iff.1 hlog
  rw [hs] at hpromise hcall
  obtain ⟨⟨events, s'⟩, hs', hevents⟩ := Option.map_eq_some_iff.1 (Option.some.inj hcall)
  obtain rfl : events = [.awaits 2 1 false] := hevents
  have hflight := (bootstrap_single_flight (reaches_steps (.opened none) hs)).2 _ _ _ hs'
  exact ⟨s, s', hs, hs', Option.some.inj hpromise, hflight⟩

end AuthService.Frontend.ApiClient

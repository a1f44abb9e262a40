import WaitingRoom.NoJs.Service
import WaitingRoom.Properties.Admission
import Mathlib.Logic.Relation

/-!
# A browser that comes back

A browser sends its cookies with each request, keeps the cookie of a response that arrives, and may drop
it. Every join of its that reached the queue is the one whose cookie it holds, one whose cookie lapsed,
or one that the queue took without an answer (`joins_accounted`), so that a form that is pressed again
takes no second place. Wherever the first
request was headed, every page in between carries it along (`next_carried`).
-/

set_option autoImplicit false

namespace WaitingRoom.NoJs

open Dynamo Concurrency Text Edge

/-! ## What a request is answered -/

section Replies

variable {service : Service} {request : Request} {later : List (Exchange Stores)} {response : Response}

/-- What a form post is answered, and what it has put on the queue. -/
inductive EnterReply (service : Service) (request : Request) (nowMs : ℕ) (draw : Option Draw) :
    List (Exchange Stores) → Response → Prop where
  | held (known : request.identity.isSome) :
      EnterReply service request nowMs draw [] (redirect (waitLocation (enterNext request)) none)
  | undrawn : EnterReply service request nowMs draw [] (page 503 .unavailable (enterNext request) none)
  | refused {identity : Identity} (unknown : request.identity = none) (error : QueueError) :
      EnterReply service request nowMs draw [⟨.send (service.joinBody identity), .error error⟩]
        (page 503 .notInLine (enterNext request) none)
  | joined {identity : Identity} (unknown : request.identity = none)
      (minted : Identity.mint nowMs draw = .ok identity) :
      EnterReply service request nowMs draw [⟨.send (service.joinBody identity), .ok ()⟩]
        (redirect (waitLocation (enterNext request)) (some identity.setCookie))

theorem enterReply_of_returns {nowMs : ℕ} {draw : Option Draw}
    (returned : Returns (handleEnter service request nowMs draw) [] later response) :
    EnterReply service request nowMs draw later response := by
  unfold handleEnter at returned
  simp only at returned
  split_ifs at returned with known
  · cases returned
    exact .held known
  · split at returned
    · cases returned
      exact .undrawn
    · next identity minted =>
      have unknown : request.identity = none := by simpa using known
      cases returned with
      | call answer rest =>
          cases answer with
          | error error =>
              cases rest
              exact .refused unknown error
          | ok accepted =>
              cases rest
              exact .joined unknown minted

/-- What the wait page is answered with. -/
inductive WaitReply (service : Service) (request : Request) : Response → Prop where
  | unknown (absent : request.identity = none) :
      WaitReply service request (page 200 .notInLine (waitNext request) none)
  | asked {identity : Identity} (known : request.identity = some identity)
      (admission : Except StoreError Admission) :
      WaitReply service request (answerWait service (waitNext request) admission)

/-- The wait page joins nobody. -/
theorem waitReply_of_returns {now : ℕ} {shard : Option Shard}
    (returned : Returns (handleWait service request now shard) [] later response) :
    WaitReply service request response ∧
      ∀ exchange ∈ later, ∃ call, exchange.call = .tables call := by
  have obeys : Obeys (fun _ call => ∃ table, call = ServiceCall.tables table)
      (fun _ response => WaitReply service request response) []
      (handleWait service request now shard) := by
    unfold handleWait
    simp only
    split
    · next unknown => exact .unknown unknown
    · next identity known =>
      refine (obeys_lift fun _ call _ => ⟨call, rfl⟩).bind fun _ admission _ => ?_
      exact .asked known admission
  refine ⟨obeys.returned returned, fun exchange member => ?_⟩
  rcases obeys.legal_of_mem returned member with started | ⟨-, -, -, tables⟩
  · cases started
  · exact tables

end Replies

/-! ## Where a visitor is headed -/

/-- Where a request is headed. -/
def Request.next (request : Request) : String :=
  match request.method with
  | .post => enterNext request
  | .get | .other => waitNext request

/-- What a browser does with a response: it follows the redirect of a form post, reloads a page, or
posts the form of a page. -/
inductive Leads (request : Request) (response : Response) (next : Request) : Prop where
  | redirect {location : String} (posted : request.method = .post)
      (located : response.location = some location) (gets : next.method = .get)
      (query : next.query = queryOf location)
  | reload {page : WaitHtml} (got : request.method = .get) (shown : response.body = .html page)
      (reloads : page.refresh ≠ none) (gets : next.method = .get) (query : next.query = request.query)
  | form {page : WaitHtml} (shown : response.body = .html page) (offered : page.showForm = true)
      (posts : next.method = .post) (query : next.query = some ("next=" ++ page.nextEncoded))

/-- One request after another. -/
inductive Hop (service : Service) (request next : Request) : Prop where
  | hop (arrival : Arrival) {later : List (Exchange Stores)} {response : Response}
      (returned : Returns (handle service request arrival) [] later response)
      (leads : Leads request response next)

/-- What a response says of where its request is headed. -/
structure CarriesOn (request : Request) (response : Response) : Prop where
  posted : request.method = .post → ∀ location, response.location = some location →
    location = waitLocation request.next
  got : request.method ≠ .post → ∀ location, response.location = some location →
    location = request.next
  shown : ∀ page, response.body = .html page → page.nextEncoded = encodeComponent request.next

section Hops

variable {service : Service} {request next : Request} {later : List (Exchange Stores)}
  {response : Response}

theorem onSite_next (request : Request) : OnSite request.next := by
  rw [Request.next]
  split
  · rw [enterNext]
    split
    · exact onSite_safeNext _
    · exact onSite_safeNext _
  · exact onSite_safeNext _
  · exact onSite_safeNext _

theorem carriesOn_page (request : Request) (status : ℕ) (shown : WaitPage)
    (setCookie : Option SetCookie) : CarriesOn request (page status shown request.next setCookie) where
  posted _ _ located := by cases located
  got _ _ located := by cases located
  shown page same := by
    obtain rfl := Body.html.inj same
    rfl

theorem carriesOn_redirect {location : String} {setCookie : Option SetCookie}
    (posted : request.method = .post → location = waitLocation request.next)
    (got : request.method ≠ .post → location = request.next) :
    CarriesOn request (redirect location setCookie) where
  posted method _ located := Option.some.inj located ▸ posted method
  got method _ located := Option.some.inj located ▸ got method
  shown _ same := by cases same

/-- Every response carries on where its request is headed. -/
theorem carriesOn_of_returns {arrival : Arrival}
    (returned : Returns (handle service request arrival) [] later response) :
    CarriesOn request response := by
  unfold handle at returned
  split_ifs at returned with posts waits
  · have headed : request.next = enterNext request := by rw [Request.next, posts.1]
    have located : ∀ setCookie,
        CarriesOn request (NoJs.redirect (waitLocation (enterNext request)) setCookie) := fun setCookie =>
      carriesOn_redirect (fun _ => by rw [headed]) fun other => absurd posts.1 other
    cases enterReply_of_returns returned with
    | held known => exact located none
    | undrawn => exact headed ▸ carriesOn_page request _ _ _
    | refused unknown error => exact headed ▸ carriesOn_page request _ _ _
    | joined unknown minted => exact located _
  · have headed : request.next = waitNext request := by rw [Request.next, waits.1]
    have notPosted : request.method ≠ .post := by
      rw [waits.1]
      decide
    cases (waitReply_of_returns returned).1 with
    | unknown absent => exact headed ▸ carriesOn_page request _ _ _
    | asked known admission =>
        rw [← headed]
        cases admission with
        | error error => exact carriesOn_page request _ _ _
        | ok admission =>
            rw [answerWait]
            split
            · exact carriesOn_redirect (fun posted => absurd posted notPosted) fun _ => rfl
            · exact carriesOn_page request _ _ _
            · exact carriesOn_page request _ _ _
  · cases returned
    exact ⟨nofun, nofun, nofun⟩

/-- The query of the wait page of a visitor. -/
theorem queryOf_waitLocation (path : String) :
    queryOf (waitLocation path) = some ("next=" ++ encodeComponent path) := by
  have plain : ∀ c ∈ waitPath.toList, (c == '?') = false := by
    have checked : waitPath.toList.all fun c => !(c == '?') := by decide
    intro c member
    simpa using List.all_eq_true.mp checked c member
  have whole : (waitLocation path).toList =
      waitPath.toList ++ '?' :: ("next=" ++ encodeComponent path).toList := by
    simp [waitLocation]
  rw [queryOf, whole, splitOnce_append plain (by decide), Option.map_some, String.ofList_toList]

/-- The next request is headed where this one is. -/
theorem next_of_hop (hop : Hop service request next) : next.next = request.next := by
  obtain ⟨arrival, returned, leads⟩ := hop
  have carries := carriesOn_of_returns returned
  have back := safeNext_encodeComponent (onSite_next request)
  cases leads with
  | redirect posted located gets query =>
      rw [carries.posted posted _ located, queryOf_waitLocation] at query
      rw [Request.next, gets]
      simp only [waitNext, query, Option.bind_some]
      exact back
  | reload got shown reloads gets query =>
      rw [Request.next, Request.next, gets, got]
      simp only [waitNext, query]
  | form shown offered posts query =>
      rw [carries.shown _ shown] at query
      rw [nextParam_encodeComponent] at back
      rw [Request.next, posts]
      simp only [enterNext, query, Option.bind_some, nextParam_encodeComponent]
      exact back

theorem next_of_hops {last : Request} (hops : Relation.ReflTransGen (Hop service) request last) :
    last.next = request.next := by
  induction hops with
  | refl => rfl
  | tail _ hop ih => exact (next_of_hop hop).trans ih

end Hops

/-- **Whatever pages are in between, a visitor that is admitted is sent to where the first request was
headed, and that is on this site.** -/
theorem next_carried {service : Service} {first last : Request}
    (hops : Relation.ReflTransGen (Hop service) first last) {arrival : Arrival}
    {later : List (Exchange Stores)} {response : Response}
    (returned : Returns (handle service last arrival) [] later response) (got : last.method = .get)
    {location : String} (located : response.location = some location) :
    location = first.next ∧ OnSite location := by
  have there := (carriesOn_of_returns returned).got (by rw [got]; decide) location located
  rw [there]
  exact ⟨next_of_hops hops, onSite_next last⟩

namespace Sample

/-- The service of the room's own deployment. -/
def service : Service :=
  ⟨WaitingRoom.Sample.deployment.hmac, WaitingRoom.Sample.deployment.digestOf,
    WaitingRoom.Sample.deployment.minting, "vwr_session", fun join => join.requestId⟩

/-- A press of the form, with some cookies. -/
def press (cookie : Option String) : Request :=
  ⟨.post, "/v1/enter", some "next=%2Fshop", none, cookie, none⟩

/-- The form is handled by its own handler. -/
theorem handle_press (cookie : Option String) :
    handle service (press cookie) ⟨0, some draw, none⟩ =
      handleEnter service (press cookie) 0 (some draw) :=
  if_pos (show Method.post = .post ∧ endsWith "/v1/enter" enterPath = true from ⟨rfl, by decide⟩)

/-- The first press joins. -/
theorem returns_press : Returns (handle service (press none) ⟨0, some draw, none⟩) []
    [⟨.send (service.joinBody drawn), .ok ()⟩]
    (redirect (waitLocation (enterNext (press none))) (some drawn.setCookie)) := by
  have unknown : ¬ (press none).identity.isSome = true := Bool.false_ne_true
  rw [handle_press, handleEnter, if_neg unknown, Identity.mint_some]
  exact .call (.ok ()) (.done _ _)

/-- Alice, who looks at the page she was sent to. -/
def look : Request :=
  ⟨.get, "/v1/wait", queryOf (waitLocation (enterNext (press none))), none,
    some (cookieHeader [(⟨WaitingRoom.Sample.alice, WaitingRoom.Sample.aliceSecret⟩ :
      Identity).setCookie.sent]), none⟩

/-- Her turn has come. -/
def reached : (call : Stores.Call) → Stores.Answer call
  | .tables call => WaitingRoom.Sample.aliceReached call
  | .send _ => .ok ()

end Sample

/-- A form is pressed, and the page it leads to sends Alice on. -/
theorem next_carried_sample : Relation.ReflTransGen (Hop Sample.service) (Sample.press none) Sample.look ∧
    ∃ later response location, Returns (handle Sample.service Sample.look ⟨0, none, none⟩) [] later
      response ∧ response.location = some location ∧ location = (Sample.press none).next ∧
      OnSite location := by
  have hops : Relation.ReflTransGen (Hop Sample.service) (Sample.press none) Sample.look :=
    .single (.hop _ Sample.returns_press (.redirect rfl rfl rfl rfl))
  obtain ⟨later, returned⟩ :=
    (handle Sample.service Sample.look ⟨0, none, none⟩).exists_returns Sample.reached []
  have sent : ((handle Sample.service Sample.look ⟨0, none, none⟩).play
      Sample.reached).location.isSome := by decide +kernel
  obtain ⟨location, located⟩ := Option.isSome_iff_exists.mp sent
  exact ⟨hops, later, _, location, returned, located, next_carried hops returned rfl located⟩

/-! ## A browser -/

/-- A browser: the value of its identity cookie, the joins of its that reached the queue, latest first,
how often a cookie lapsed, and how often the queue took a join and did not answer. -/
structure Browser where
  jar : Option String
  joins : List String
  lapses : ℕ
  unanswered : ℕ
  deriving DecidableEq

/-- The first visit. -/
def Browser.start : Browser := ⟨none, [], 0, 0⟩

/-- The join that an exchange put on the queue; one that was answered with an error is there if it
landed. -/
def joinOf (landed : Bool) : Exchange Stores → Option String
  | ⟨.send body, .ok ()⟩ => some body
  | ⟨.send body, .error _⟩ => if landed then some body else none
  | _ => none

/-- A join is on the queue without an answer. -/
def isUnanswered (landed : Bool) : Exchange Stores → Bool
  | ⟨.send _, .error _⟩ => landed
  | _ => false

/-- The cookie a browser holds after a response. -/
def receive (jar : Option String) : Option SetCookie → Option String
  | none => jar
  | some cookie =>
      if cookie.name = identityCookie ∧ cookie.path = identityCookiePath then
        if cookie.maxAge = 0 then none else some cookie.value
      else jar

/-- A cookie lapses when a response clears it, or does not arrive with it. -/
def lapsed (delivered : Bool) : Option SetCookie → Bool
  | none => false
  | some cookie =>
      decide (cookie.name = identityCookie ∧ cookie.path = identityCookiePath) &&
        (if delivered then cookie.maxAge = 0 else cookie.maxAge ≠ 0)

/-- A browser after a request that was answered, whether or not the answer arrived, and whether or not
a join that failed landed. -/
def Browser.after (browser : Browser) (exchanges : List (Exchange Stores)) (response : Response)
    (delivered landed : Bool) : Browser where
  jar := if delivered then receive browser.jar response.setCookie else browser.jar
  joins := exchanges.filterMap (joinOf landed) ++ browser.joins
  lapses := browser.lapses + (lapsed delivered response.setCookie).toNat
  unanswered := browser.unanswered + exchanges.countP (isUnanswered landed)

/-- The identity cookie as it is sent. -/
def jarPair (value : String) : List Char := identityCookie.toList ++ '=' :: value.toList

/-- The `Cookie` header of a browser: its identity cookie among other cookies, all of them visible and
none of them an identity. -/
inductive Sends (jar : Option String) : Option String → Prop where
  | nothing (empty : jar = none) : Sends jar none
  | cookies {before after : List (List Char)}
      (apart : ∀ pair ∈ before ++ after, ';' ∉ pair ∧ identityOf pair = none)
      (visible : ∀ pair ∈ before ++ after, ∀ c ∈ pair, isVisible c) :
      Sends jar (some (cookieHeader (before ++ jar.toList.map jarPair ++ after)))

/-- One visit: a request is answered, or the browser drops its cookie. -/
inductive Visit (service : Service) : Browser → Browser → Prop where
  | request {browser : Browser} {request : Request} (sends : Sends browser.jar request.cookie)
      (arrival : Arrival) {later : List (Exchange Stores)} {response : Response}
      (returned : Returns (handle service request arrival) [] later response)
      (delivered landed : Bool) :
      Visit service browser (browser.after later response delivered landed)
  | lapse {browser : Browser} (held : browser.jar ≠ none) :
      Visit service browser { browser with jar := none, lapses := browser.lapses + 1 }

/-- Visits, one after another. -/
abbrev Visits (service : Service) : Browser → Browser → Prop := Relation.ReflTransGen (Visit service)

/-- The cookie is that of the last join, and every other join's has lapsed or was never sent. -/
structure Accounted (service : Service) (browser : Browser) : Prop where
  count : browser.joins.length =
    browser.lapses + browser.unanswered + browser.jar.toList.length
  held : ∀ value, browser.jar = some value → ∃ identity : Identity, identity.WellFormed ∧
    value = identity.cookieValue ∧ browser.joins.head? = some (service.joinBody identity)

section Browsers

variable {service : Service} {browser : Browser} {request : Request}

/-- Cookies that are no identities are passed over. -/
theorem findSome?_of_none {pairs : List (List Char)} (others : ∀ pair ∈ pairs, identityOf pair = none) :
    pairs.findSome? identityOf = none :=
  List.findSome?_eq_none_iff.mpr others

/-- What is found in what is sent is what is held. -/
theorem identity_of_sends {jar cookie : Option String} (sends : Sends jar cookie)
    (plain : ∀ value, jar = some value → ∀ c ∈ jarPair value, Solid c) :
    (header cookie).bind identityFromCookies = jar.bind fun value => identityOf (jarPair value) := by
  cases sends with
  | nothing empty => rw [empty]; rfl
  | @cookies before after apart visible =>
      have shown : ∀ pair ∈ before ++ jar.toList.map jarPair ++ after, ∀ c ∈ pair, isVisible c := by
        intro pair member c inside
        rcases List.mem_append.mp member with first | last
        · rcases List.mem_append.mp first with earlier | held
          · exact visible pair (List.mem_append_left _ earlier) c inside
          · obtain ⟨value, kept, rfl⟩ := List.mem_map.mp held
            exact (plain value (Option.mem_toList.mp kept) c inside).visible
        · exact visible pair (List.mem_append_right _ last) c inside
      have separate : ∀ pair ∈ before ++ jar.toList.map jarPair ++ after, ';' ∉ pair := by
        intro pair member
        rcases List.mem_append.mp member with first | last
        · rcases List.mem_append.mp first with earlier | held
          · exact (apart pair (List.mem_append_left _ earlier)).1
          · obtain ⟨value, kept, rfl⟩ := List.mem_map.mp held
            exact fun inside => (plain value (Option.mem_toList.mp kept) ';' inside).notEnd rfl
        · exact (apart pair (List.mem_append_right _ last)).1
      have earlier : before.findSome? identityOf = none :=
        findSome?_of_none fun pair member => (apart pair (List.mem_append_left _ member)).2
      have later : after.findSome? identityOf = none :=
        findSome?_of_none fun pair member => (apart pair (List.mem_append_right _ member)).2
      rw [header, Option.bind_some, headerText_cookieHeader shown, Option.bind_some,
        identityFromCookies_eq separate, List.findSome?_append,
        List.findSome?_append, earlier, later, Option.none_or, Option.or_none]
      cases jar with
      | none => rfl
      | some value => simp

theorem Accounted.identity (accounted : Accounted service browser)
    (sends : Sends browser.jar request.cookie) :
    (browser.jar = none ∧ request.identity = none) ∨
      browser.jar ≠ none ∧ request.identity ≠ none := by
  have found := identity_of_sends sends fun value held => by
    obtain ⟨identity, shape, rfl, -⟩ := accounted.held value held
    exact fun c member => solid_of_mem_sent shape member
  cases jar : browser.jar with
  | none =>
      rw [jar] at found
      exact .inl ⟨rfl, found⟩
  | some value =>
      obtain ⟨identity, shape, rfl, -⟩ := accounted.held value jar
      rw [jar, Option.bind_some] at found
      refine .inr ⟨Option.some_ne_none _, ?_⟩
      rw [Request.identity, found]
      exact (identityOf_sent shape).symm ▸ Option.some_ne_none identity

/-- Exchanges that put nothing on the queue. -/
structure Quiet (landed : Bool) (exchanges : List (Exchange Stores)) : Prop where
  joins : exchanges.filterMap (joinOf landed) = []
  unanswered : exchanges.countP (isUnanswered landed) = 0

theorem quiet_nil (landed : Bool) : Quiet landed [] := ⟨rfl, rfl⟩

/-- A table call puts nothing on the queue. -/
theorem quiet_of_tables {later : List (Exchange Stores)} (landed : Bool)
    (tables : ∀ exchange ∈ later, ∃ call, exchange.call = .tables call) : Quiet landed later where
  joins := by
    refine List.filterMap_eq_nil_iff.mpr fun exchange member => ?_
    obtain ⟨call, same⟩ := tables exchange member
    obtain ⟨request, answer⟩ := exchange
    obtain rfl : request = .tables call := same
    rfl
  unanswered := by
    refine List.countP_eq_zero.mpr fun exchange member => ?_
    obtain ⟨call, same⟩ := tables exchange member
    obtain ⟨request, answer⟩ := exchange
    obtain rfl : request = .tables call := same
    exact Bool.false_ne_true

/-- A response without a cookie of an identity, and nothing on the queue, change nothing. -/
theorem Accounted.after_of_quiet (accounted : Accounted service browser)
    {later : List (Exchange Stores)} {response : Response} (delivered landed : Bool)
    (quiet : Quiet landed later)
    (other : ∀ cookie, response.setCookie = some cookie →
      ¬ (cookie.name = identityCookie ∧ cookie.path = identityCookiePath)) :
    Accounted service (browser.after later response delivered landed) := by
  have same : browser.after later response delivered landed = browser := by
    cases carried : response.setCookie with
    | none => simp [Browser.after, quiet.joins, quiet.unanswered, carried, receive, lapsed]
    | some cookie =>
        simp [Browser.after, quiet.joins, quiet.unanswered, carried, receive, lapsed,
          other cookie carried]
  rw [same]
  exact accounted

/-- A page that clears the cookie. -/
theorem Accounted.after_of_cleared (accounted : Accounted service browser)
    {later : List (Exchange Stores)} {response : Response} (delivered landed : Bool)
    (quiet : Quiet landed later) (held : browser.jar ≠ none)
    (cleared : response.setCookie = some clearIdentityCookie) :
    Accounted service (browser.after later response delivered landed) := by
  cases delivered with
  | false =>
      have same : browser.after later response false landed = browser := by
        simp [Browser.after, quiet.joins, quiet.unanswered, cleared, lapsed, clearIdentityCookie]
      rw [same]
      exact accounted
  | true =>
      obtain ⟨value, kept⟩ := Option.ne_none_iff_exists'.mp held
      have count := accounted.count
      rw [kept] at count
      refine ⟨?_, ?_⟩
      · simp [Browser.after, quiet.joins, quiet.unanswered, cleared, lapsed, receive,
          clearIdentityCookie] at count ⊢
        omega
      · intro value kept
        simp [Browser.after, cleared, receive, clearIdentityCookie] at kept

/-- A form post that joined. -/
theorem Accounted.after_of_joined (accounted : Accounted service browser) (empty : browser.jar = none)
    {identity : Identity} (shape : identity.WellFormed) {response : Response} (delivered landed : Bool)
    (stored : response.setCookie = some identity.setCookie) :
    Accounted service
      (browser.after [⟨.send (service.joinBody identity), .ok ()⟩] response delivered landed) := by
  have joined : [(⟨.send (service.joinBody identity), .ok ()⟩ : Exchange Stores)].filterMap
      (joinOf landed) = [service.joinBody identity] := rfl
  have answered : [(⟨.send (service.joinBody identity), .ok ()⟩ : Exchange Stores)].countP
      (isUnanswered landed) = 0 := rfl
  have count := accounted.count
  rw [empty] at count
  cases delivered with
  | false =>
      refine ⟨?_, ?_⟩
      · simp [Browser.after, joined, answered, stored, lapsed, Identity.setCookie, identityMaxAgeSecs,
          empty] at count ⊢
        omega
      · intro value kept
        rw [Browser.after, if_neg Bool.false_ne_true, empty] at kept
        cases kept
  | true =>
      refine ⟨?_, ?_⟩
      · simp [Browser.after, joined, answered, stored, lapsed, receive, Identity.setCookie,
          identityMaxAgeSecs] at count ⊢
        omega
      · intro value kept
        simp [Browser.after, stored, receive, Identity.setCookie, identityMaxAgeSecs] at kept
        exact ⟨identity, shape, kept.symm, rfl⟩

/-- A form post whose join was answered with an error. -/
theorem Accounted.after_of_refused (accounted : Accounted service browser) (empty : browser.jar = none)
    {identity : Identity} {error : QueueError} {response : Response} (delivered landed : Bool)
    (none : response.setCookie = .none) :
    Accounted service
      (browser.after [⟨.send (service.joinBody identity), .error error⟩] response delivered landed) := by
  have count := accounted.count
  rw [empty] at count
  have jar : (browser.after [⟨.send (service.joinBody identity), .error error⟩] response delivered
      landed).jar = .none := by
    simp [Browser.after, none, receive, empty]
  refine ⟨?_, fun value kept => ?_⟩
  · rw [jar]
    cases landed with
    | false =>
        simp [Browser.after, none, lapsed, joinOf, isUnanswered] at count ⊢
        omega
    | true =>
        simp [Browser.after, none, lapsed, joinOf, isUnanswered] at count ⊢
        omega
  · rw [jar] at kept
    cases kept

/-- A form post keeps the account. -/
theorem Accounted.enter (accounted : Accounted service browser)
    (sends : Sends browser.jar request.cookie) {nowMs : ℕ} {draw : Option Draw}
    {later : List (Exchange Stores)} {response : Response}
    (reply : EnterReply service request nowMs draw later response) (delivered landed : Bool) :
    Accounted service (browser.after later response delivered landed) := by
  cases reply with
  | held known => exact accounted.after_of_quiet delivered landed (quiet_nil landed) nofun
  | undrawn => exact accounted.after_of_quiet delivered landed (quiet_nil landed) nofun
  | refused unknown error =>
      rcases accounted.identity sends with ⟨empty, -⟩ | ⟨-, known⟩
      · exact accounted.after_of_refused empty delivered landed rfl
      · exact absurd unknown known
  | joined unknown minted =>
      rcases accounted.identity sends with ⟨empty, -⟩ | ⟨-, known⟩
      · exact accounted.after_of_joined empty (Identity.wellFormed_of_mint minted) delivered landed rfl
      · exact absurd unknown known

/-- A wait page keeps the account. -/
theorem Accounted.wait (accounted : Accounted service browser)
    (sends : Sends browser.jar request.cookie) {later : List (Exchange Stores)} {response : Response}
    (reply : WaitReply service request response)
    (tables : ∀ exchange ∈ later, ∃ call, exchange.call = .tables call) (delivered landed : Bool) :
    Accounted service (browser.after later response delivered landed) := by
  have quiet := quiet_of_tables landed tables
  cases reply with
  | unknown absent => exact accounted.after_of_quiet delivered landed quiet nofun
  | asked known admission =>
      have held : browser.jar ≠ none := by
        rcases accounted.identity sends with ⟨-, unknown⟩ | ⟨held, -⟩
        · rw [unknown] at known
          cases known
        · exact held
      cases admission with
      | error error => exact accounted.after_of_quiet delivered landed quiet nofun
      | ok admission =>
          rw [answerWait]
          cases outcome admission with
          | admits credential =>
              refine accounted.after_of_quiet delivered landed quiet fun cookie carried => ?_
              obtain rfl := Option.some.inj carried
              rintro ⟨-, path⟩
              exact absurd (show "/" = identityCookiePath from path) (by decide)
          | page shown =>
              cases shown with
              | lost => exact accounted.after_of_cleared delivered landed quiet held rfl
              | notInLine => exact accounted.after_of_quiet delivered landed quiet nofun
              | joining => exact accounted.after_of_quiet delivered landed quiet nofun
              | queued position ahead => exact accounted.after_of_quiet delivered landed quiet nofun
              | holding => exact accounted.after_of_quiet delivered landed quiet nofun
              | unavailable => exact accounted.after_of_quiet delivered landed quiet nofun

/-- One visit keeps the account. -/
theorem Accounted.visit {browser' : Browser} (accounted : Accounted service browser)
    (visit : Visit service browser browser') : Accounted service browser' := by
  cases visit with
  | request sends arrival returned delivered landed =>
      unfold handle at returned
      split_ifs at returned with posts waits
      · exact accounted.enter sends (enterReply_of_returns returned) delivered landed
      · obtain ⟨reply, tables⟩ := waitReply_of_returns returned
        exact accounted.wait sends reply tables delivered landed
      · cases returned
        exact accounted.after_of_quiet delivered landed (quiet_nil landed) nofun
  | lapse held =>
      obtain ⟨value, kept⟩ := Option.ne_none_iff_exists'.mp held
      have count := accounted.count
      rw [kept] at count
      refine ⟨?_, nofun⟩
      simp at count ⊢
      omega

end Browsers

/-- **Every join of a browser that reached the queue is accounted for**: it is the one whose cookie the
browser holds, which is the last, or one of as many as cookies have lapsed and the queue left
unanswered. -/
theorem joins_accounted {service : Service} {browser : Browser}
    (visits : Visits service .start browser) :
    browser.joins.length = browser.lapses + browser.unanswered + browser.jar.toList.length ∧
      ∀ value, browser.jar = some value → ∃ identity : Identity, identity.WellFormed ∧
        value = identity.cookieValue ∧ browser.joins.head? = some (service.joinBody identity) := by
  have accounted : Accounted service browser := by
    induction visits with
    | refl => exact ⟨rfl, nofun⟩
    | tail _ visit ih => exact ih.visit visit
  exact ⟨accounted.count, accounted.held⟩

namespace Sample

/-- A browser that has joined. -/
def joined : Browser := ⟨some drawn.cookieValue, [service.joinBody drawn], 0, 0⟩

/-- The first press joins. -/
theorem visit_press : Visit service .start joined :=
  .request (.nothing rfl) _ returns_press true false

/-- The second press sends the cookie, and joins nobody. -/
theorem visit_again : Visit service joined joined := by
  have sends : Sends joined.jar (some (cookieHeader [drawn.setCookie.sent])) :=
    @Sends.cookies joined.jar [] [] nofun nofun
  have known : (press (some (cookieHeader [drawn.setCookie.sent]))).identity.isSome := by
    have plain : ';' ∉ drawn.setCookie.sent := fun member =>
      (solid_of_mem_sent drawn_wellFormed member).notEnd rfl
    have visible : ∀ c ∈ drawn.setCookie.sent, isVisible c := fun c member =>
      (solid_of_mem_sent drawn_wellFormed member).visible
    rw [Request.identity, press, header, Option.bind_some,
      headerText_cookieHeader (List.forall_mem_singleton.mpr visible), Option.bind_some,
      identityFromCookies_eq (List.forall_mem_singleton.mpr plain), List.findSome?_singleton,
      identityOf_sent drawn_wellFormed]
    rfl
  have returned : Returns (handle service (press (some (cookieHeader [drawn.setCookie.sent])))
      ⟨0, some draw, none⟩) [] []
      (redirect (waitLocation (enterNext (press (some (cookieHeader [drawn.setCookie.sent]))))) none) := by
    rw [handle_press, handleEnter, if_pos known]
    exact .done _ _
  exact .request sends _ returned true false

end Sample

/-- A browser joins, presses the form again, and has joined once. -/
theorem joins_accounted_sample : Visits Sample.service .start Sample.joined ∧
    Sample.joined.joins.length = 0 + 0 + 1 :=
  have visits := (Relation.ReflTransGen.single Sample.visit_press).tail Sample.visit_again
  ⟨visits, (joins_accounted visits).1⟩

end WaitingRoom.NoJs

import InfraPlatform.Proxy.Director
import InfraPlatform.Proxy.Serve

/-!
# What each attempt sends

The attempts of one request with the outbound request that each of them makes.  `Clone` copies the URL and the headers,
so the rewrite and the forwarding headers start from the client's request every time.  The body is shared: it is a
stream, which the transport reads from, as far as the attempt gets, and closes, also if the attempt fails.

* `Wire.Inv`: what has been sent so far; `exec_inv` shows that every call of the handler keeps it.
* `attempt_same_iff`: an attempt sends what the first one would have sent, unless it retries a request with a body.
-/

namespace Proxy

open Lib

/-! ## The body -/

structure Body where
  rest : List UInt8
  closed : Bool := false

/-- What reading to the end gives: a closed body gives nothing. -/
def Body.readAll (b : Body) : List UInt8 := if b.closed then [] else b.rest

/-- The transport reads `n` bytes and closes. -/
def Body.use (b : Body) (n : Nat) : Body := ⟨b.rest.drop n, true⟩

/-! ## The transport -/

/-- What is outside the handler, the body of the client's request, and what has been sent. -/
structure Wire (E : Type) where
  outside : E
  body : Body
  sent : List (Backend × Outbound) := []

/-- A balancer and a transport, which comes back with an outcome after it has read some of the body. -/
structure Transport (E : Type) where
  next : World (Wire E) → Option Backend × E
  roundTrip : Backend → Outbound → World (Wire E) → Outcome × Nat × E

variable {E : Type} (splitHostPort : String → Option String) (urlOf : Backend → URL)

/-- `proxyOnce` makes the request and hands it to the transport. -/
def Transport.env (t : Transport E) (r : Request) : Env (Wire E) where
  next w := ((t.next w).1, { w.env with outside := (t.next w).2 })
  clientDo b w :=
    let out := newOutboundRequest splitHostPort r (urlOf b) w.env.body.readAll
    let result := t.roundTrip b out w
    (result.1,
      { outside := result.2.2
        body := w.env.body.use result.2.1
        sent := w.env.sent ++ [(b, out)] })

/-- The world after a request with that body. -/
def Transport.serve (t : Transport E) (maxRetries : Int64) (r : Request) (body : List UInt8) (outside : E)
    (w : World (Wire E)) : World (Wire E) :=
  Proxy.serve (t.env splitHostPort urlOf r) maxRetries r.method { w with env := { outside, body := ⟨body, false⟩ } }

/-! ## What was sent -/

/-- The request of attempt `i`. -/
def attemptRequest (r : Request) (body : List UInt8) (i : Nat) (b : Backend) : Outbound :=
  newOutboundRequest splitHostPort r (urlOf b) (if i = 0 then body else [])

/-- The attempts so far have sent what they can, and the body is open until the first one. -/
structure Wire.Inv (r : Request) (body : List UInt8) (w : World (Wire E)) : Prop where
  tried : w.env.sent.map Prod.fst = w.tried.map Prod.fst
  open_ : w.env.sent = [] → w.env.body = ⟨body, false⟩
  closed : w.env.sent ≠ [] → w.env.body.closed = true
  sent : ∀ i b out, w.env.sent[i]? = some (b, out) → out = attemptRequest splitHostPort urlOf r body i b

variable {splitHostPort urlOf} {r : Request} {body : List UInt8} {w : World (Wire E)}

/-- What the body gives to the next attempt. -/
theorem Wire.Inv.readAll (h : Wire.Inv splitHostPort urlOf r body w) :
    w.env.body.readAll = if w.env.sent.length = 0 then body else [] := by
  unfold Body.readAll
  split
  · next hclosed =>
    have hne : w.env.sent ≠ [] := by
      intro hnil
      rw [h.open_ hnil] at hclosed
      cases hclosed
    rw [if_neg (by simpa using hne)]
  · next hopen =>
    have hnil : w.env.sent = [] := by
      by_contra hne
      exact hopen (h.closed hne)
    rw [h.open_ hnil, hnil]
    rfl

/-- Every call of the handler keeps it. -/
theorem exec_inv (t : Transport E) (c : Call) (h : Wire.Inv splitHostPort urlOf r body w) :
    Wire.Inv splitHostPort urlOf r body (exec (t.env splitHostPort urlOf r) c w).2 := by
  cases c with
  | clientDo b =>
    refine ⟨?_, ?_, fun _ => rfl, ?_⟩
    · simp [exec, Transport.env, h.tried]
    · intro hnil
      simp [exec, Transport.env] at hnil
    · intro i b' out hi
      simp only [exec, Transport.env] at hi
      rw [List.getElem?_append] at hi
      split at hi
      · exact h.sent i b' out hi
      · next hge =>
        have hlast : i = w.env.sent.length := by
          by_contra hne
          rw [List.getElem?_eq_none (by simp; omega)] at hi
          cases hi
        subst hlast
        simp only [Nat.sub_self, List.getElem?_cons_zero, Option.some.injEq, Prod.mk.injEq] at hi
        obtain ⟨rfl, rfl⟩ := hi
        rw [h.readAll]
        rfl
  | _ => exact ⟨h.tried, h.open_, h.closed, h.sent⟩

/-- So does a request, which begins with nothing sent. -/
theorem Transport.serve_inv (t : Transport E) (splitHostPort : String → Option String) (urlOf : Backend → URL)
    (maxRetries : Int64) (r : Request) (body : List UInt8) (outside : E) (w : World (Wire E)) :
    Wire.Inv splitHostPort urlOf r body (t.serve splitHostPort urlOf maxRetries r body outside w) := by
  refine (Prog.run_runs (exec (t.env splitHostPort urlOf r)) (fun _ _ => rfl) _ _ :
    Prog.Runs (fun c s a s' => (a, s') = exec (t.env splitHostPort urlOf r) c s) _ _ _ _).inv _ ?_ ?_
  · rintro c s a s' hstep hs
    have hs' := exec_inv t c hs
    rwa [← hstep] at hs'
  · exact ⟨rfl, fun _ => rfl, fun hne => absurd rfl hne, fun i b out hi => by simp at hi⟩

/-! ## The forwarding headers -/

/-- The values of `X-Forwarded-For` that are sent: the client's address after what the client sent. -/
def forwardedFor (splitHostPort : String → Option String) (r : Request) : List String :=
  match splitHostPort r.remoteAddr with
  | some clientIP =>
    [if r.header.get "X-Forwarded-For" = "" then clientIP else r.header.get "X-Forwarded-For" ++ ", " ++ clientIP]
  | none => r.header "X-Forwarded-For"

theorem Header.set_of_ne (h : Header) {key key' : String} (hne : key' ≠ key) (value : String) :
    h.set key value key' = h key' := Function.update_of_ne hne _ _

theorem applyForwardingHeaders_for (splitHostPort : String → Option String) (r : Request) :
    applyForwardingHeaders splitHostPort r.header r "X-Forwarded-For" = forwardedFor splitHostPort r := by
  have hproto : "X-Forwarded-For" ≠ "X-Forwarded-Proto" := by decide
  have hhost : "X-Forwarded-For" ≠ "X-Forwarded-Host" := by decide
  -- the headers that are set later are other ones
  have hlater (h : Header) : (if h.get "X-Forwarded-Host" = "" then h.set "X-Forwarded-Host" r.host else h)
      "X-Forwarded-For" = h "X-Forwarded-For" := by
    split
    · exact h.set_of_ne hhost _
    · rfl
  unfold applyForwardingHeaders forwardedFor
  rw [Header.set_of_ne _ hproto, hlater]
  cases splitHostPort r.remoteAddr with
  | none => rfl
  | some clientIP =>
    by_cases hprior : r.header.get "X-Forwarded-For" = ""
    · simp [hprior, Header.set]
    · simp [hprior, Header.set]

/-! ## The attempts of a request -/

/-- The request without its body. -/
def Outbound.head (o : Outbound) : Outbound := { o with body := [] }

theorem newOutboundRequest_inj {target : URL} {b b' : List UInt8} :
    newOutboundRequest splitHostPort r target b = newOutboundRequest splitHostPort r target b' ↔ b = b' := by
  constructor
  · intro h
    exact congrArg Outbound.body h
  · rintro rfl
    rfl

/-- **What an attempt sends.**  Method, URL, host and headers are those that the first attempt would have sent to that
backend, with the client's address added once; the body is the same only in the first attempt, or if there is none. -/
theorem attempt_same_iff (t : Transport E) (splitHostPort : String → Option String) (urlOf : Backend → URL)
    (maxRetries : Int64) (r : Request) (body : List UInt8) (outside : E) (w : World (Wire E)) (i : Nat) (b : Backend)
    (o : Outcome) (h : (t.serve splitHostPort urlOf maxRetries r body outside w).tried[i]? = some (b, o)) :
    ∃ out, (t.serve splitHostPort urlOf maxRetries r body outside w).env.sent[i]? = some (b, out) ∧
      out.head = (newOutboundRequest splitHostPort r (urlOf b) body).head ∧
      out.header "X-Forwarded-For" = forwardedFor splitHostPort r ∧
      (out = newOutboundRequest splitHostPort r (urlOf b) body ↔ i = 0 ∨ body = []) := by
  have hinv := t.serve_inv splitHostPort urlOf maxRetries r body outside w
  -- the attempt has its entry in what was sent
  have hentry := congrArg (fun l => l[i]?) hinv.tried
  simp only [List.getElem?_map, h, Option.map_some, Option.map_eq_some_iff] at hentry
  obtain ⟨⟨b', out⟩, hsent, rfl⟩ := hentry
  obtain rfl := hinv.sent i b' out hsent
  refine ⟨_, hsent, rfl, applyForwardingHeaders_for splitHostPort r, ?_⟩
  unfold attemptRequest
  rw [newOutboundRequest_inj]
  by_cases hi : i = 0
  · simp [hi]
  · simp [hi, eq_comm]

/-- The first attempt fails after the body has been read.  The second one gets its response if the body is as long as
announced; `net/http` fails a request whose body falls short. -/
def flaky : Transport Unit where
  next w := (some (if w.tried.isEmpty then Backend.new 0 "a" 1 else Backend.new 1 "b" 1), ())
  roundTrip _ out w :=
    (if !w.tried.isEmpty ∧ out.contentLength = .ofNat out.body.length then .response ⟨204, by decide⟩ else .failure,
      out.body.length, ())

/-- `GET /search`, with a query in its body or none. -/
def searchRequest (body : List UInt8) : Request where
  method := "GET"
  url := { path := bytesOf "/search" }
  header := fun _ => []
  host := "proxy"
  remoteAddr := "10.0.0.9:4711"
  requestURI := "/search"
  contentLength := .ofNat body.length

def searched (body : List UInt8) : World (Wire Unit) :=
  flaky.serve some (fun _ => rootTarget) 1 (searchRequest body) body ()
    { env := { outside := (), body := ⟨[], false⟩ } }

theorem attempt_same_iff_noBody : (searched []).tried[1]? = some (Backend.new 1 "b" 1, .response ⟨204, by decide⟩) ∧
    ∃ out, (searched []).env.sent[1]? = some (Backend.new 1 "b" 1, out) ∧
      out = newOutboundRequest some (searchRequest []) rootTarget [] := by
  have htried : (searched []).tried[1]? = some (Backend.new 1 "b" 1, .response ⟨204, by decide⟩) := by decide +kernel
  obtain ⟨out, hsent, -, -, hsame⟩ :=
    attempt_same_iff flaky some (fun _ => rootTarget) 1 (searchRequest []) [] () _ 1 _ _ htried
  exact ⟨htried, out, hsent, hsame.mpr (.inr rfl)⟩

/-- The second attempt sends an empty body, and fails for it. -/
theorem retry_without_body : idempotentMethods (searchRequest (bytesOf "hello")).method = true ∧
    (searched (bytesOf "hello")).tried = [(Backend.new 0 "a" 1, .failure), (Backend.new 1 "b" 1, .failure)] ∧
    (searched (bytesOf "hello")).env.sent.map (fun s => s.2.body) = [bytesOf "hello", []] ∧
    ∀ out, (searched (bytesOf "hello")).env.sent[1]? = some (Backend.new 1 "b" 1, out) →
      out ≠ newOutboundRequest some (searchRequest (bytesOf "hello")) rootTarget (bytesOf "hello") := by
  have hbodies : (searched (bytesOf "hello")).env.sent.map (fun s => s.2.body) = [bytesOf "hello", []] := by
    decide +kernel
  refine ⟨by decide, by decide +kernel, hbodies, ?_⟩
  rintro out hout rfl
  have hsecond := congrArg (fun l => l[1]?) hbodies
  simp only [List.getElem?_map, hout] at hsecond
  exact absurd hsecond (by decide +kernel)

end Proxy

import InfraPlatform.Lib.Percent
import InfraPlatform.Proxy.Model

/-!
# The outbound request

`internal/proxy/director.go`: the request that is sent to a backend, made from the client's, and the part of `net/url`
that decides which path is sent.  A Go string that holds a path is a list of bytes.

A URL has its path twice: `Path` decoded, and `RawPath` as it was written if that is not the default encoding.  The
rewrite joins the decoded paths and leaves the client's `RawPath` in place, which `EscapedPath` then uses only if
it still encodes the path.

* `singleJoiningSlash_eq`: the join has exactly one slash at the joint.
* `escapedPath_outbound`: the path that is sent is the default encoding of the joined paths, or the client's own if the
  join left it alone.
* `escaped_path_iff`: when what is sent is the join of the escaped paths.
-/

namespace Proxy

open Lib Lib.Percent

/-! ## Paths of `net/url` -/

abbrev Text := List UInt8

/-- The bytes of a text in ASCII. -/
def bytesOf (s : String) : Text := s.toList.map fun c => UInt8.ofNat c.toNat

def slash : UInt8 := 47

/-- Bytes that need no escape in a path: `shouldEscape` denies it. -/
def keepInPath (c : UInt8) : Bool :=
  (97 ≤ c && c ≤ 122) || (65 ≤ c && c ≤ 90) || (48 ≤ c && c ≤ 57) || (bytesOf "-_.~").contains c ||
    (bytesOf "$&+,/:;=@").contains c

def escapePath (path : Text) : Text := escape keepInPath path

/-- `validEncoded` for a path. -/
def validEncoded (s : Text) : Bool := s.all fun c => (bytesOf "!$&'()*+,;=:@[]%").contains c || keepInPath c

structure URL where
  scheme : String := "http"
  host : String := ""
  path : Text := []
  rawPath : Text := []
  rawQuery : String := ""
deriving DecidableEq

namespace URL

/-- The encoding without a `RawPath`; `*` stands for itself. -/
def defaultPath (u : URL) : Text := if u.path = bytesOf "*" then bytesOf "*" else escapePath u.path

def escapedPath (u : URL) : Text :=
  if u.rawPath ≠ [] ∧ validEncoded u.rawPath = true ∧ unescape u.rawPath = some u.path then u.rawPath
  else u.defaultPath

/-- The path fields that parsing leaves. -/
def Parsed (u : URL) : Prop :=
  ∃ text, unescape text = some u.path ∧ u.rawPath = if text = escapePath u.path then [] else text

end URL

/-! ## `singleJoiningSlash` -/

def hasSlashSuffix (a : Text) : Bool := a.getLast? = some slash

def hasSlashPrefix (b : Text) : Bool := b.head? = some slash

def singleJoiningSlash (a b : Text) : Text :=
  match hasSlashSuffix a, hasSlashPrefix b with
  | true, true => a ++ b.drop 1
  | false, false => a ++ slash :: b
  | _, _ => a ++ b

/-! ## The request -/

/-- Header values by canonical key; none where there is no entry. -/
abbrev Header := String → List String

namespace Header

def get (h : Header) (key : String) : String := (h key).headD ""

def set (h : Header) (key value : String) : Header := Function.update h key [value]

end Header

/-- The client's request without its body. -/
structure Request where
  method : String
  url : URL
  header : Header
  host : String
  remoteAddr : String
  requestURI : String
  contentLength : Int64 := 0
  tls : Bool := false

/-- The request to a backend, `body` being what its `Body` still gives when read. -/
structure Outbound where
  method : String
  url : URL
  header : Header
  host : String
  requestURI : String
  contentLength : Int64
  body : List UInt8

section

-- the host part of an address, by `net.SplitHostPort`
variable (splitHostPort : String → Option String)

def applyForwardingHeaders (header : Header) (original : Request) : Header :=
  let header := match splitHostPort original.remoteAddr with
    | some clientIP =>
      if header.get "X-Forwarded-For" ≠ "" then
        header.set "X-Forwarded-For" (header.get "X-Forwarded-For" ++ ", " ++ clientIP)
      else header.set "X-Forwarded-For" clientIP
    | none => header
  let header := if header.get "X-Forwarded-Host" = "" then header.set "X-Forwarded-Host" original.host else header
  header.set "X-Forwarded-Proto" (if original.tls then "https" else "http")

/-- The rewritten URL. -/
def outboundURL (target original : URL) : URL :=
  { original with
    scheme := target.scheme
    host := target.host
    path := singleJoiningSlash target.path original.path }

/-- `Clone` copies the URL and the headers, and shares the body. -/
def newOutboundRequest (r : Request) (target : URL) (body : List UInt8) : Outbound where
  method := r.method
  url := outboundURL target r.url
  header := applyForwardingHeaders splitHostPort r.header r
  host := target.host
  requestURI := ""
  contentLength := r.contentLength
  body := body

end

/-! ## One slash at the joint -/

/-- `strings.TrimSuffix(a, "/")`. -/
def trimSuffix (a : Text) : Text := if hasSlashSuffix a then a.dropLast else a

/-- `strings.TrimPrefix(b, "/")`. -/
def trimPrefix (b : Text) : Text := if hasSlashPrefix b then b.drop 1 else b

/-- The texts with exactly one slash at the joint. -/
def oneSlash (a b : Text) : Text := trimSuffix a ++ slash :: trimPrefix b

/-- A slash, if there is one. -/
def slashIf (c : Bool) : Text := if c then [slash] else []

section Slashes

variable {a b u v p q : Text}

@[simp] theorem length_slashIf (c : Bool) : (slashIf c).length = c.toNat := by cases c <;> rfl

theorem hasSlashSuffix_iff : hasSlashSuffix a = true ↔ ∃ s, a = s ++ [slash] := by
  simp [hasSlashSuffix, List.getLast?_eq_some_iff]

theorem hasSlashPrefix_iff : hasSlashPrefix b = true ↔ ∃ s, b = slash :: s := by
  simp [hasSlashPrefix, List.head?_eq_some_iff]

theorem trimSuffix_restore (a : Text) : trimSuffix a ++ slashIf (hasSlashSuffix a) = a := by
  unfold trimSuffix slashIf
  cases ha : hasSlashSuffix a with
  | true =>
    obtain ⟨s, rfl⟩ := hasSlashSuffix_iff.mp ha
    simp
  | false => simp

theorem trimPrefix_restore (b : Text) : slashIf (hasSlashPrefix b) ++ trimPrefix b = b := by
  unfold trimPrefix slashIf
  cases hb : hasSlashPrefix b with
  | true =>
    obtain ⟨s, rfl⟩ := hasSlashPrefix_iff.mp hb
    simp
  | false => simp

/-- **The join has exactly one slash at the joint.** -/
theorem singleJoiningSlash_eq (a b : Text) : singleJoiningSlash a b = oneSlash a b := by
  unfold singleJoiningSlash oneSlash trimSuffix trimPrefix
  cases ha : hasSlashSuffix a with
  | true =>
    obtain ⟨s, rfl⟩ := hasSlashSuffix_iff.mp ha
    cases hasSlashPrefix b <;> simp
  | false =>
    cases hb : hasSlashPrefix b with
    | true =>
      obtain ⟨t, rfl⟩ := hasSlashPrefix_iff.mp hb
      simp
    | false => simp

/-- What a join leaves alone. -/
theorem oneSlash_eq_right_iff : oneSlash a b = b ↔ (a = [] ∨ a = [slash]) ∧ hasSlashPrefix b = true := by
  constructor
  · intro h
    have hlen := congrArg List.length h
    nth_rewrite 2 [← trimPrefix_restore b] at hlen
    simp only [oneSlash, List.length_append, List.length_cons, length_slashIf] at hlen
    have hle := Bool.toNat_le (hasSlashPrefix b)
    have hnil : trimSuffix a = [] := List.eq_nil_of_length_eq_zero (by omega)
    have ha := trimSuffix_restore a
    rw [hnil, List.nil_append] at ha
    refine ⟨?_, ?_⟩
    · rw [← ha]
      cases hasSlashSuffix a
      · exact .inl rfl
      · exact .inr rfl
    · cases hb : hasSlashPrefix b with
      | true => rfl
      | false =>
        rw [hb, Bool.toNat_false] at hlen
        omega
  · rintro ⟨ha, hb⟩
    obtain ⟨t, rfl⟩ := hasSlashPrefix_iff.mp hb
    rcases ha with rfl | rfl
    · rfl
    · rfl

/-! ### Escaped texts -/

theorem slash_ne_percent : slash ≠ percent := by decide

theorem escapePath_append (s t : Text) : escapePath (s ++ t) = escapePath s ++ escapePath t :=
  escape_append keepInPath s t

theorem escapePath_slash : escapePath [slash] = [slash] := escape_kept (by decide)

theorem escapePath_slashIf (c : Bool) : escapePath (slashIf c) = slashIf c := by
  cases c
  · rfl
  · exact escapePath_slash

theorem decodes_escapePath (s : Text) : Decodes (escapePath s) s := .of_escape (by decide) s

/-- The slash that ends an escaped text stands for itself. -/
theorem decodes_trimSuffix (h : Decodes u p) : ∃ t, Decodes (trimSuffix u) t ∧ p = t ++ slashIf (hasSlashSuffix u) := by
  have hu := trimSuffix_restore u
  cases hs : hasSlashSuffix u with
  | true =>
    rw [hs] at hu
    rw [← hu] at h
    obtain ⟨t, hp, ht⟩ := h.snoc slash_ne_percent (by decide)
    exact ⟨t, ht, hp⟩
  | false =>
    rw [hs, slashIf, if_neg (by simp), List.append_nil] at hu
    rw [hu]
    exact ⟨p, h, by simp [slashIf]⟩

theorem decodes_trimPrefix (h : Decodes v q) : ∃ t, Decodes (trimPrefix v) t ∧ q = slashIf (hasSlashPrefix v) ++ t := by
  have hv := trimPrefix_restore v
  cases hs : hasSlashPrefix v with
  | true =>
    rw [hs] at hv
    rw [← hv] at h
    obtain ⟨t, hq, ht⟩ := h.cons slash_ne_percent
    exact ⟨t, ht, hq⟩
  | false =>
    rw [hs, slashIf, if_neg (by simp), List.nil_append] at hv
    rw [hv]
    exact ⟨q, h, by simp [slashIf]⟩

theorem hasSlashSuffix_of_decodes (h : Decodes u p) (hu : hasSlashSuffix u = true) : hasSlashSuffix p = true := by
  obtain ⟨t, -, hp⟩ := decodes_trimSuffix h
  rw [hu] at hp
  exact hasSlashSuffix_iff.mpr ⟨t, hp⟩

theorem hasSlashPrefix_of_decodes (h : Decodes v q) (hv : hasSlashPrefix v = true) : hasSlashPrefix q = true := by
  obtain ⟨t, -, hq⟩ := decodes_trimPrefix h
  rw [hv] at hq
  exact hasSlashPrefix_iff.mpr ⟨t, hq⟩

theorem hasSlashSuffix_escape (a : Text) : hasSlashSuffix (escapePath a) = hasSlashSuffix a := by
  rw [Bool.eq_iff_iff]
  constructor
  · exact hasSlashSuffix_of_decodes (decodes_escapePath a)
  · intro h
    obtain ⟨s, rfl⟩ := hasSlashSuffix_iff.mp h
    rw [escapePath_append, escapePath_slash]
    exact hasSlashSuffix_iff.mpr ⟨_, rfl⟩

theorem hasSlashPrefix_escape (b : Text) : hasSlashPrefix (escapePath b) = hasSlashPrefix b := by
  rw [Bool.eq_iff_iff]
  constructor
  · exact hasSlashPrefix_of_decodes (decodes_escapePath b)
  · intro h
    obtain ⟨s, rfl⟩ := hasSlashPrefix_iff.mp h
    rw [← List.singleton_append, escapePath_append, escapePath_slash]
    exact hasSlashPrefix_iff.mpr ⟨_, rfl⟩

/-- Escaping and joining can be exchanged. -/
theorem escapePath_oneSlash (a b : Text) :
    escapePath (oneSlash a b) = oneSlash (escapePath a) (escapePath b) := by
  have hsuf : escapePath (trimSuffix a) = trimSuffix (escapePath a) := by
    have h := trimSuffix_restore (escapePath a)
    nth_rewrite 3 [← trimSuffix_restore a] at h
    rw [escapePath_append, escapePath_slashIf, hasSlashSuffix_escape] at h
    exact (List.append_cancel_right h).symm
  have hpre : escapePath (trimPrefix b) = trimPrefix (escapePath b) := by
    have h := trimPrefix_restore (escapePath b)
    nth_rewrite 3 [← trimPrefix_restore b] at h
    rw [escapePath_append, escapePath_slashIf, hasSlashPrefix_escape] at h
    exact (List.append_cancel_left h).symm
  calc escapePath (trimSuffix a ++ ([slash] ++ trimPrefix b))
      = escapePath (trimSuffix a) ++ ([slash] ++ escapePath (trimPrefix b)) := by
        rw [escapePath_append, escapePath_append, escapePath_slash]
    _ = oneSlash (escapePath a) (escapePath b) := by
        rw [hsuf, hpre]
        rfl

/-- Two joins of texts that stand for the same pieces are equal only if the pieces are, provided that the second one's
have no slash at the joint that the first one's have not. -/
theorem oneSlash_inj {u' v' : Text} (hu : Decodes u p) (hu' : Decodes u' p) (hv : Decodes v q) (hv' : Decodes v' q)
    (hs : hasSlashSuffix u' = true → hasSlashSuffix u = true)
    (ht : hasSlashPrefix v' = true → hasSlashPrefix v = true)
    (heq : oneSlash u v = oneSlash u' v') : u = u' ∧ v = v' := by
  obtain ⟨t, hdt, hpt⟩ := decodes_trimSuffix hu
  obtain ⟨t', hdt', hpt'⟩ := decodes_trimSuffix hu'
  obtain ⟨w, hdw, hqw⟩ := decodes_trimPrefix hv
  obtain ⟨w', hdw', hqw'⟩ := decodes_trimPrefix hv'
  -- equal joins stand for equally many bytes, so the slashes at the joints are the same
  have hlen : t.length + w.length = t'.length + w'.length := by
    have hd : Decodes (oneSlash u v) (t ++ slash :: w) := hdt.append (.plain slash_ne_percent hdw)
    have hd' : Decodes (oneSlash u' v') (t' ++ slash :: w') := hdt'.append (.plain slash_ne_percent hdw')
    rw [heq] at hd
    have h := congrArg List.length (hd.det hd')
    simp only [List.length_append, List.length_cons] at h
    omega
  have hp := congrArg List.length (hpt.symm.trans hpt')
  have hq := congrArg List.length (hqw.symm.trans hqw')
  simp only [List.length_append, length_slashIf] at hp hq
  have hle := Bool.toNat_le_toNat (Bool.le_iff_imp.mpr hs)
  have hle' := Bool.toNat_le_toNat (Bool.le_iff_imp.mpr ht)
  have hinj := (show Function.LeftInverse Bool.ofNat Bool.toNat from Bool.ofNat_toNat).injective
  have hsame : hasSlashSuffix u = hasSlashSuffix u' := hinj (by omega)
  have hsame' : hasSlashPrefix v = hasSlashPrefix v' := hinj (by omega)
  -- so are the pieces without them
  rw [hpt, hsame] at hpt'
  obtain rfl := List.append_cancel_right hpt'
  have htrim := hdt.append_inj hdt' heq
  unfold oneSlash at heq
  rw [htrim] at heq
  have htrim' := (List.cons.inj (List.append_cancel_left heq)).2
  constructor
  · rw [← trimSuffix_restore u, htrim, hsame, trimSuffix_restore]
  · rw [← trimPrefix_restore v, htrim', hsame', trimPrefix_restore]

end Slashes

/-! ## The path that is sent -/

theorem URL.escapedPath_decodes (u : URL) : Decodes u.escapedPath u.path := by
  unfold URL.escapedPath
  split
  · next h => exact decodes_of_unescape h.2.2
  · unfold URL.defaultPath
    split
    · next h =>
      rw [h]
      exact decodes_of_unescape (by decide)
    · exact decodes_escapePath u.path

/-- The path that is sent: the client's escaped path if the join left the path alone, otherwise the default encoding of
the joined paths. -/
theorem escapedPath_outbound {original : URL} (h : original.Parsed) (target : URL) :
    (outboundURL target original).escapedPath =
      if oneSlash target.path original.path = original.path then original.escapedPath
      else oneSlash (escapePath target.path) (escapePath original.path) := by
  have hpath : (outboundURL target original).path = oneSlash target.path original.path :=
    singleJoiningSlash_eq target.path original.path
  have hdefault : (outboundURL target original).defaultPath =
      oneSlash (escapePath target.path) (escapePath original.path) := by
    rw [← escapePath_oneSlash, ← hpath]
    refine if_neg ?_
    -- a join has a slash in it
    intro hstar
    have hmem : slash ∈ oneSlash target.path original.path := by simp [oneSlash]
    rw [← hpath, hstar] at hmem
    exact absurd hmem (by decide)
  split
  · next hsame =>
    rw [hsame] at hpath
    unfold URL.escapedPath URL.defaultPath
    rw [hpath]
    rfl
  · next hother =>
    rw [← hdefault]
    refine if_neg ?_
    rintro ⟨hne, -, hdec⟩
    -- the client's `RawPath` encodes the client's path
    obtain ⟨text, htext, hraw⟩ := h
    change original.rawPath ≠ [] at hne
    change unescape original.rawPath = _ at hdec
    rw [hpath] at hdec
    rw [hraw] at hne hdec
    split at hne
    · exact hne rfl
    · next hno =>
      rw [if_neg hno, htext] at hdec
      exact hother (Option.some.inj hdec).symm

section

variable (splitHostPort : String → Option String)

/-- **When what is sent is the join of the escaped paths.**  The backend's base path has the default encoding, and so
has the client's path, or the base path is empty or a slash and the client's path begins with a slash. -/
theorem escaped_path_iff (r : Request) (target : URL) (body : List UInt8) (h : r.url.Parsed) :
    (newOutboundRequest splitHostPort r target body).url.escapedPath =
        oneSlash target.escapedPath r.url.escapedPath ↔
      target.escapedPath = escapePath target.path ∧
        (r.url.escapedPath = escapePath r.url.path ∨
          (target.path = [] ∨ target.path = [slash]) ∧ hasSlashPrefix r.url.escapedPath = true) := by
  have ht := target.escapedPath_decodes
  have hr := r.url.escapedPath_decodes
  change (outboundURL target r.url).escapedPath = _ ↔ _
  rw [escapedPath_outbound h]
  split
  · next hsame =>
    obtain ⟨hshort, hp⟩ := oneSlash_eq_right_iff.mp hsame
    have hdefault : escapePath target.path = target.path := by
      rcases hshort with hnil | hslash
      · rw [hnil]
        rfl
      · rw [hslash]
        exact escapePath_slash
    rw [eq_comm, oneSlash_eq_right_iff, hdefault]
    constructor
    · rintro ⟨hbase, hclient⟩
      refine ⟨?_, .inr ⟨hshort, hclient⟩⟩
      -- both stand for themselves
      rcases hbase with hbase | hbase
      · rw [hbase] at ht ⊢
        exact Decodes.nil.det ht
      · rw [hbase] at ht ⊢
        exact (Decodes.plain slash_ne_percent .nil).det ht
    · rintro ⟨hbase, hclient⟩
      rw [hbase]
      refine ⟨hshort, ?_⟩
      rcases hclient with hclient | ⟨-, hclient⟩
      · rw [hclient, hasSlashPrefix_escape]
        exact hp
      · exact hclient
  · next hother =>
    constructor
    · intro heq
      have hinj := oneSlash_inj (decodes_escapePath target.path) ht (decodes_escapePath r.url.path) hr
        (fun hs => by rw [hasSlashSuffix_escape]; exact hasSlashSuffix_of_decodes ht hs)
        (fun hp => by rw [hasSlashPrefix_escape]; exact hasSlashPrefix_of_decodes hr hp) heq
      exact ⟨hinj.1.symm, .inl hinj.2.symm⟩
    · rintro ⟨hbase, hclient | ⟨hshort, hp⟩⟩
      · rw [hbase, hclient]
      · exact absurd (oneSlash_eq_right_iff.mpr ⟨hshort, hasSlashPrefix_of_decodes hr hp⟩) hother

end

/-- `GET /files/a%2Fb`. -/
def encodedSlash : Request where
  method := "GET"
  url := { path := bytesOf "/files/a/b", rawPath := bytesOf "/files/a%2Fb" }
  header := fun _ => []
  host := "proxy"
  remoteAddr := "10.0.0.9:4711"
  requestURI := "/files/a%2Fb"

/-- A backend without a base path. -/
def rootTarget : URL := { host := "10.0.0.1:9000" }

def apiTarget : URL := { host := "10.0.0.1:9000", path := bytesOf "/api" }

theorem encodedSlash_parsed : encodedSlash.url.Parsed := ⟨bytesOf "/files/a%2Fb", by decide +kernel, by decide +kernel⟩

theorem escaped_path_iff_root : encodedSlash.url.Parsed ∧
    (newOutboundRequest some encodedSlash rootTarget []).url.escapedPath =
      oneSlash rootTarget.escapedPath encodedSlash.url.escapedPath :=
  ⟨encodedSlash_parsed, (escaped_path_iff some encodedSlash rootTarget [] encodedSlash_parsed).mpr (by decide +kernel)⟩

/-- Behind a base path the slash that was encoded is sent as a slash. -/
theorem encoded_slash_decoded : encodedSlash.url.Parsed ∧ encodedSlash.url.escapedPath = bytesOf "/files/a%2Fb" ∧
    apiTarget.escapedPath = bytesOf "/api" ∧
    (newOutboundRequest some encodedSlash apiTarget []).url.escapedPath = bytesOf "/api/files/a/b" ∧
    (newOutboundRequest some encodedSlash apiTarget []).url.escapedPath ≠
      oneSlash apiTarget.escapedPath encodedSlash.url.escapedPath :=
  ⟨encodedSlash_parsed, by decide +kernel, by decide +kernel, by decide +kernel, by decide +kernel⟩

end Proxy

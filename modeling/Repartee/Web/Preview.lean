import Repartee.E2e.Basic
import Repartee.Web.PublicAddress

/-!
# The preview proxy

`/api/preview` of `web/preview.rs` with the two fetches of `image_preview/fetch.rs`. The HTTP
client and the URL parser are third-party: each request of the client reports the addresses that
it has connected to, and `Sends` says how they come about.

## Main definitions

- `validateUrlShape`, `redirectPolicy`, `publicOnlyResolver`: the three guards
- `fetchImage`, `previewHandler`: the code, with the addresses that are connected to
- `Sends`: a request of the client through a chain of redirects

## Main results

- `sends_public`: a request whose URL has been validated connects to public addresses only
- `previewHandler_public`: the same for the whole of a preview
-/

set_option autoImplicit false

namespace Repartee.Web

/-! ### Surroundings -/

inductive SendError where
  | timeout
  | redirect (text : Str)
  | builder (text : Str)
  | other (text : Str)
  deriving DecidableEq

/-- A response, whose body may fail to arrive. -/
structure Response (Url : Type) where
  url : Url
  contentType : Option Str
  contentLength : Option Nat
  body : Except SendError (List UInt8)

/-- What a preview takes from its surroundings: the URL parser and the HTML expression of the
crates, the texts of `std`, the answer of the system's resolver to the check up front, what
becomes of the `k`-th request of the client, with the addresses that it connects to, the cache on
disk, and the thumbnail encoder. -/
structure Surroundings where
  Url : Type
  parse : Str → Option Url
  scheme : Url → Str
  hostStr : Url → Option Str
  join : Url → Str → Option Url
  toStr : Url → Str
  parseIp : Str → Option IpAddr
  fromUtf8Lossy : List UInt8 → Str
  ogImage : Str → Option Str
  lookupHost : Str → Option (List IpAddr)
  send : (k : Nat) → Url → List IpAddr × Except SendError (Response Url)
  cached : Option (List UInt8)
  /-- The encoder panics, fails or succeeds. -/
  encodeThumbnail : List UInt8 → Option (Option (List UInt8))

variable (w : Surroundings)

/-! ### The guards -/

/-- A host without the brackets of an IPv6 literal. -/
def hostInner (host : Str) : Str :=
  ((Text.stripPrefix ['['] host).bind (Text.stripSuffix [']'])).getD host

/-- `validate_url_shape` -/
def validateUrlShape (url : w.Url) : Except Str Unit :=
  if w.scheme url ≠ str "http" ∧ w.scheme url ≠ str "https" then
    .error (str "scheme must be http or https")
  else
    match w.hostStr url with
    | none => .error (str "missing host")
    | some host =>
      match w.parseIp (hostInner host) with
      | some ip =>
        if isDisallowedIp ip then .error (str "address is not a public unicast ip") else .ok ()
      | none => .ok ()

/-- `validate_url_shape_str` -/
def validateUrlShapeStr (url : Str) : Except Str Unit :=
  match w.parse url with
  | none => .error (str "invalid url")
  | some parsed => validateUrlShape w parsed

/-- `url_is_publicly_resolvable` -/
def urlIsPubliclyResolvable (raw : Str) : Except Str Unit :=
  match w.parse raw with
  | none => .error (str "invalid url")
  | some parsed => do
    validateUrlShape w parsed
    match w.hostStr parsed with
    | none => .error (str "missing host")
    | some host =>
      if (w.parseIp (hostInner host)).isSome then .ok ()
      else
        match w.lookupHost (hostInner host) with
        | none => .error (str "dns resolution failed")
        | some addrs =>
          if addrs.isEmpty then .error (str "no addresses resolved")
          else if addrs.any isDisallowedIp then
            .error (str "address resolves to a non-public ip")
          else .ok ()

/-- `redirect_policy`: whether a redirect is followed. -/
def redirectPolicy (previous : List w.Url) (url : w.Url) : Except Str Unit :=
  if 5 ≤ previous.length then .error (str "too many redirects") else validateUrlShape w url

/-- `PublicOnlyResolver`, on an answer of the system's resolver. -/
def publicOnlyResolver (addrs : List IpAddr) : Except Str (List IpAddr) :=
  let filtered := addrs.filter (fun ip => !isDisallowedIp ip)
  if filtered.isEmpty then .error (str "no public unicast addresses for host") else .ok filtered

/-! ### The fetches -/

structure FetchConfig where
  timeoutSecs : Nat
  maxFileSize : Nat
  urlValidator : Option (Str → Except Str Unit)

/-- The validator runs before every request. -/
def FetchConfig.check (config : FetchConfig) (url : Str) : Except Str Unit :=
  match config.urlValidator with
  | none => .ok ()
  | some validator => validator url

/-- The configuration of a preview. -/
def previewConfig : FetchConfig := ⟨30, 10485760, some (validateUrlShapeStr w)⟩

inductive FetchError where
  | timeout
  | tooLarge (size max : Nat)
  | notAnImage (contentType : Str)
  | noOgImage
  | network (text : Str)
  | invalidUrl (text : Str)
  | blockedUrl (reason : Str)
  deriving DecidableEq

/-- The error of a request that fails. -/
def SendError.toFetchError : SendError → FetchError
  | .timeout => .timeout
  | .redirect text => .network (str "redirect error: " ++ text)
  | .builder text => .invalidUrl text
  | .other text => .network text

/-- The error of a body that fails to arrive. -/
def SendError.toBodyError : SendError → FetchError
  | .timeout => .timeout
  | .redirect text | .builder text | .other text => .network text

/-- What `fetch_url` reads from a response: the body, its type and the final URL. -/
def readResponse (config : FetchConfig) (response : Response w.Url) :
    Except FetchError (List UInt8 × Str × Str) :=
  match response.contentLength.filter (fun len => config.maxFileSize < len) with
  | some len => .error (.tooLarge len config.maxFileSize)
  | none =>
    match response.body with
    | .error e => .error e.toBodyError
    | .ok bytes =>
      if config.maxFileSize < bytes.length then
        .error (.tooLarge bytes.length config.maxFileSize)
      else .ok (bytes, response.contentType.getD [], w.toStr response.url)

/-- `fetch_url`, as the `k`-th request. -/
def fetchUrl (k : Nat) (url : Str) (config : FetchConfig) :
    List IpAddr × Except FetchError (List UInt8 × Str × Str) :=
  match config.check url with
  | .error reason => ([], .error (.blockedUrl reason))
  | .ok _ =>
    match w.parse url with
    | none => ([], .error (SendError.builder (str "builder error")).toFetchError)
    | some parsed =>
      match w.send k parsed with
      | (addrs, .error e) => (addrs, .error e.toFetchError)
      | (addrs, .ok response) => (addrs, readResponse w config response)

def isImageContentType (contentType : Str) : Bool := Text.startsWith contentType (str "image/")

/-- `str::contains` -/
def containsText (text pattern : Str) : Bool :=
  text.tails.any (fun rest => Text.startsWith rest pattern)

/-- `resolve_url` -/
def resolveUrl (url base : Str) : Str :=
  if Text.startsWith url (str "http://") || Text.startsWith url (str "https://") then url
  else (((w.parse base).bind (fun b => w.join b url)).map w.toStr).getD url

/-- `fetch_image`: the bytes of the image and their type. -/
def fetchImage (url : Str) (config : FetchConfig) :
    List IpAddr × Except FetchError (List UInt8 × Str) :=
  match fetchUrl w 0 url config with
  | (addrs, .error e) => (addrs, .error e)
  | (addrs, .ok (data, contentType, resolvedUrl)) =>
    if isImageContentType contentType then (addrs, .ok (data, contentType))
    else if containsText contentType (str "text/html") then
      match w.ogImage (w.fromUtf8Lossy data) with
      | none => (addrs, .error .noOgImage)
      | some ogUrl =>
        match fetchUrl w 1 (resolveUrl w ogUrl resolvedUrl) config with
        | (addrs', .error e) => (addrs ++ addrs', .error e)
        | (addrs', .ok (imgData, imgCt, _)) =>
          if isImageContentType imgCt then (addrs ++ addrs', .ok (imgData, imgCt))
          else (addrs ++ addrs', .error (.notAnImage imgCt))
    else (addrs, .error (.notAnImage contentType))

/-- What a request for a preview brings: whether it is authenticated, whether previews are
enabled, and the URL that has been extracted from a message under its hash. -/
structure PreviewRequest where
  authenticated : Bool
  enabled : Bool
  url : Option Str

/-- `preview_handler`: the addresses that are connected to, and the status. -/
def previewHandler (request : PreviewRequest) : List IpAddr × Nat :=
  if !request.authenticated then ([], 401)
  else if !request.enabled then ([], 404)
  else
    match request.url with
    | none => ([], 404)
    | some url =>
      match urlIsPubliclyResolvable w url with
      | .error _ => ([], 400)
      | .ok _ =>
        match w.cached with
        | some _ => ([], 200)
        | none =>
          match fetchImage w url (previewConfig w) with
          | (addrs, .error _) => (addrs, 502)
          | (addrs, .ok (data, _)) =>
            match w.encodeThumbnail data with
            | none => (addrs, 500)
            | some none => (addrs, 415)
            | some (some _) => (addrs, 200)

/-! ### The client -/

/-- The addresses that a request connects to: the literal of its URL, or addresses that the
resolver of the client returns, whatever the system's resolver answers. -/
def Connects (url : w.Url) (addrs : List IpAddr) : Prop :=
  match w.hostStr url with
  | none => addrs = []
  | some host =>
    match w.parseIp (hostInner host) with
    | some ip => ∀ addr ∈ addrs, addr = ip
    | none => ∀ addr ∈ addrs, ∃ answer allowed, publicOnlyResolver answer = .ok allowed ∧
        addr ∈ allowed

/-- A request, and the requests it is redirected to if the policy lets it. -/
inductive Sends : (previous : List w.Url) → (url : w.Url) → List IpAddr →
    Except SendError (Response w.Url) → Prop
  | failed {previous url addrs} (hconnects : Connects w url addrs) (e : SendError) :
      Sends previous url addrs (.error e)
  | answered {previous url addrs} (hconnects : Connects w url addrs) (response : Response w.Url)
      (hurl : response.url = url) : Sends previous url addrs (.ok response)
  | redirected {previous url addrs} (hconnects : Connects w url addrs) (next : w.Url)
      (hpolicy : redirectPolicy w (previous ++ [url]) next = .ok ()) {addrs' outcome}
      (hsends : Sends (previous ++ [url]) next addrs' outcome) :
      Sends previous url (addrs ++ addrs') outcome

/-- What is assumed of the client. -/
def ClientSends : Prop := ∀ k url, Sends w [] url (w.send k url).1 (w.send k url).2

/-! ### Only public addresses -/

/-- Nothing but public addresses. -/
def AllPublic (addrs : List IpAddr) : Prop := ∀ addr ∈ addrs, isDisallowedIp addr = false

variable {w}

theorem allPublic_nil : AllPublic [] := by
  intro addr haddr
  cases haddr

theorem AllPublic.append {addrs addrs' : List IpAddr} (h : AllPublic addrs)
    (h' : AllPublic addrs') : AllPublic (addrs ++ addrs') := by
  intro addr haddr
  rcases List.mem_append.mp haddr with hleft | hright
  · exact h addr hleft
  · exact h' addr hright

/-- The resolver returns public addresses only. -/
theorem publicOnlyResolver_public {answer allowed : List IpAddr}
    (h : publicOnlyResolver answer = .ok allowed) : AllPublic allowed := by
  rw [publicOnlyResolver] at h
  split_ifs at h
  cases h
  intro addr haddr
  have hkept := (List.mem_filter.mp haddr).2
  rw [Bool.not_eq_true'] at hkept
  exact hkept

/-- A URL that has been validated does not name an address that is not public. -/
theorem literal_public {url : w.Url} (h : validateUrlShape w url = .ok ()) {host : Str}
    (hhost : w.hostStr url = some host) {ip : IpAddr} (hip : w.parseIp (hostInner host) = some ip) :
    isDisallowedIp ip = false := by
  rw [validateUrlShape] at h
  split_ifs at h
  simp only [hhost, hip] at h
  by_contra hnot
  rw [if_pos (by simpa using hnot)] at h
  cases h

theorem connects_public {url : w.Url} (h : validateUrlShape w url = .ok ()) {addrs : List IpAddr}
    (hconnects : Connects w url addrs) : AllPublic addrs := by
  rw [Connects] at hconnects
  cases hhost : w.hostStr url with
  | none =>
    rw [hhost] at hconnects
    rw [hconnects]
    exact allPublic_nil
  | some host =>
    simp only [hhost] at hconnects
    intro addr haddr
    cases hip : w.parseIp (hostInner host) with
    | some ip =>
      simp only [hip] at hconnects
      rw [hconnects addr haddr]
      exact literal_public h hhost hip
    | none =>
      simp only [hip] at hconnects
      obtain ⟨answer, allowed, hresolved, hmem⟩ := hconnects addr haddr
      exact publicOnlyResolver_public hresolved addr hmem

/-- **A validated request** connects to public addresses only, through any chain of redirects. -/
theorem sends_public {previous : List w.Url} {url : w.Url} {addrs : List IpAddr}
    {outcome : Except SendError (Response w.Url)} (hsends : Sends w previous url addrs outcome)
    (h : validateUrlShape w url = .ok ()) : AllPublic addrs := by
  induction hsends with
  | failed hconnects e => exact connects_public h hconnects
  | answered hconnects response hurl => exact connects_public h hconnects
  | redirected hconnects next hpolicy hsends ih =>
    -- the policy validates the target of a redirect
    rw [redirectPolicy] at hpolicy
    split_ifs at hpolicy
    exact (connects_public h hconnects).append (ih hpolicy)

/-- A fetch of a preview connects to public addresses only. -/
theorem fetchUrl_public (hclient : ClientSends w) (k : Nat) (url : Str) :
    AllPublic (fetchUrl w k url (previewConfig w)).1 := by
  rw [fetchUrl]
  cases hvalid : (previewConfig w).check url with
  | error reason => exact allPublic_nil
  | ok _ =>
    rw [FetchConfig.check, previewConfig] at hvalid
    dsimp only at hvalid
    rw [validateUrlShapeStr] at hvalid
    cases hparse : w.parse url with
    | none => exact allPublic_nil
    | some parsed =>
      rw [hparse] at hvalid
      have hpublic : AllPublic (w.send k parsed).1 := sends_public (hclient k parsed) hvalid
      dsimp only
      cases hsend : w.send k parsed with
      | mk addrs outcome =>
        rw [hsend] at hpublic
        cases outcome with
        | error e => exact hpublic
        | ok response => exact hpublic

theorem fetchImage_public (hclient : ClientSends w) (url : Str) :
    AllPublic (fetchImage w url (previewConfig w)).1 := by
  have hfirst := fetchUrl_public hclient 0 url
  rw [fetchImage]
  cases hpage : fetchUrl w 0 url (previewConfig w) with
  | mk addrs outcome =>
    rw [hpage] at hfirst
    cases outcome with
    | error e => exact hfirst
    | ok page =>
      obtain ⟨data, contentType, resolvedUrl⟩ := page
      dsimp only
      split_ifs
      · exact hfirst
      · cases w.ogImage (w.fromUtf8Lossy data) with
        | none => exact hfirst
        | some ogUrl =>
          -- the second fetch is a request of its own, which is validated again
          have hsecond := fetchUrl_public hclient 1 (resolveUrl w ogUrl resolvedUrl)
          dsimp only
          cases himage : fetchUrl w 1 (resolveUrl w ogUrl resolvedUrl) (previewConfig w) with
          | mk addrs' outcome' =>
            rw [himage] at hsecond
            cases outcome' with
            | error e => exact hfirst.append hsecond
            | ok image =>
              dsimp only
              split_ifs
              · exact hfirst.append hsecond
              · exact hfirst.append hsecond
      · exact hfirst

/-- **Only public addresses**: whatever the message, the redirects, the pages and the answers of
the resolver are, a preview connects to no address that the test disallows. -/
theorem previewHandler_public (hclient : ClientSends w) (request : PreviewRequest) :
    ∀ addr ∈ (previewHandler w request).1, isDisallowedIp addr = false := by
  show AllPublic (previewHandler w request).1
  rw [previewHandler]
  split_ifs
  · exact allPublic_nil
  · exact allPublic_nil
  · cases request.url with
    | none => exact allPublic_nil
    | some url =>
      dsimp only
      cases urlIsPubliclyResolvable w url with
      | error reason => exact allPublic_nil
      | ok _ =>
        dsimp only
        cases w.cached with
        | some bytes => exact allPublic_nil
        | none =>
          have hfetched := fetchImage_public hclient url
          dsimp only
          cases hfetch : fetchImage w url (previewConfig w) with
          | mk addrs outcome =>
            rw [hfetch] at hfetched
            cases outcome with
            | error e => exact hfetched
            | ok image =>
              dsimp only
              cases w.encodeThumbnail image.1 with
              | none => exact hfetched
              | some thumbnail => cases thumbnail <;> exact hfetched

/-! ### A preview -/

/-- A URL of the form `https://host/path`. -/
structure PlainUrl where
  host : Str
  path : Str
  deriving DecidableEq

def PlainUrl.text (url : PlainUrl) : Str := str "https://" ++ url.host ++ '/' :: url.path

/-- The URL that a text spells, if it is one of that form in lower case. -/
def PlainUrl.parse (text : Str) : Option PlainUrl :=
  ((Text.stripPrefix (str "https://") text).bind (Text.splitOnce '/')).bind (fun (host, path) =>
    if host.isEmpty then none else some ⟨host, path⟩)

/-- The image that a page names, with the attributes in this order. -/
def ogImageOf (html : Str) : Option Str :=
  html.tails.findSome? (fun rest =>
    (Text.stripPrefix (str "<meta property=\"og:image\" content=\"") rest).bind (fun rest =>
      (Text.splitOnce '"' rest).map Prod.fst))

def publicIp : IpAddr := .v4 ⟨8, 8, 8, 8⟩

def articleUrl : PlainUrl := ⟨str "a.io", str "p"⟩

/-- The last answer to a request: the article, which names an image, or the image. -/
def lastAnswer (url : PlainUrl) : Response PlainUrl :=
  if url = articleUrl then
    ⟨⟨str "www.a.io", str "p"⟩, some (str "text/html"), none,
      .ok (Utf8.encode (str "<meta property=\"og:image\" content=\"https://img.a.io/i.png\">"))⟩
  else ⟨⟨str "cdn.a.io", url.path⟩, some (str "image/png"), none, .ok [137, 80, 78, 71]⟩

/-- Surroundings in which hosts resolve to a public address, and every request is redirected once
before it is answered. -/
def oneRedirect : Surroundings where
  Url := PlainUrl
  parse := PlainUrl.parse
  scheme := fun _ => str "https"
  hostStr := fun url => some url.host
  join := fun _ text => PlainUrl.parse text
  toStr := PlainUrl.text
  parseIp := fun _ => none
  fromUtf8Lossy := List.map (fun b => Char.ofNat b.toNat)
  ogImage := ogImageOf
  lookupHost := fun _ => some [publicIp]
  send := fun _ url => ([publicIp] ++ [publicIp], .ok (lastAnswer url))
  cached := none
  encodeThumbnail := fun data => some (some data)

theorem oneRedirect_sends : ClientSends oneRedirect := by
  intro k url
  have hconnects (url : PlainUrl) : Connects oneRedirect url [publicIp] := by
    intro addr haddr
    exact ⟨[publicIp, .v4 ⟨127, 0, 0, 1⟩], [publicIp], by decide, haddr⟩
  have hpolicy : redirectPolicy oneRedirect ([] ++ [url]) (lastAnswer url).url = .ok () := rfl
  exact .redirected (hconnects url) _ hpolicy (.answered (hconnects _) _ rfl)

/-- A page and the image that it names are fetched through a redirect each. -/
theorem previewHandler_public_oneRedirect :
    previewHandler oneRedirect ⟨true, true, some articleUrl.text⟩ =
        ([publicIp, publicIp, publicIp, publicIp], 200) ∧
      ∀ addr ∈ (previewHandler oneRedirect ⟨true, true, some articleUrl.text⟩).1,
        isDisallowedIp addr = false :=
  ⟨by decide +kernel, previewHandler_public oneRedirect_sends _⟩

end Repartee.Web

import Eiger.Api.Auth
import Mathlib.Data.List.DropRight

/-!
# The typed client

`EigerClient` of `clients/node` gives its token in two ways: with a request in the authorization
header, and in the URL of a session's WebSocket, whose query it writes as a form. Both texts pass
through the platform's `Headers` and `URLSearchParams`, and are read by the server with other rules.

The query is read as it is written, so the URL is usable with the right token, whatever characters
it has (`session_url_usable_iff`). The header is not: `Headers` drops blanks at its end, and the
server reads visible ASCII only. So there are tokens with which a client can connect to a session
and cannot make a request (`client_authorized_iff`).
-/

namespace Eiger

open Url Text

/-! ## The client -/

/-- A base URL as `new URL` has read it: whether its protocol is `https:`, and its host, which has
none of the characters that end a host. -/
structure BaseUrl where
  secure : Bool
  host : String
  plain : ∀ c ∈ host.toList, endsAuthority c = false

/-- `EigerClient`. -/
structure EigerClient where
  baseUrl : BaseUrl
  token : Option String

/-- The byte is one that `encodeURIComponent` leaves. -/
def isComponentPlain (b : UInt8) : Bool :=
  isUnreserved b || b == 0x21 || b == 0x27 || b == 0x28 || b == 0x29 || b == 0x2A

/-- `encodeURIComponent`. -/
def encodeUriComponent (s : String) : String :=
  asciiText ((utf8 s).flatMap (escapeByte isComponentPlain))

/-- A blank of HTTP. -/
def isHttpBlank (c : Char) : Bool := c = ' ' || c = '\t' || c = '\n' || c = '\r'

/-- What `Headers` sends of a text: without the blanks around it. -/
def stripBlanks (cs : List Char) : List Char := (cs.dropWhile isHttpBlank).rdropWhile isHttpBlank

/-- `Headers.set`, by the value that is sent. It throws where the text has a character beyond
Latin-1, and where what is sent has one that no header may have. -/
def headersSet (s : String) : Option HeaderValue :=
  let value := stripBlanks s.toList
  if s.toList.all (·.toNat < 256) && value.all fun c => c ≠ '\x00' && c ≠ '\n' && c ≠ '\r' then
    some (value.map fun c => UInt8.ofNat c.toNat)
  else none

namespace EigerClient

/-- The token, where it is truthy. -/
def givenToken (client : EigerClient) : Option String := client.token.filter (· ≠ "")

/-- The protocol of a WebSocket of the client. -/
def scheme (client : EigerClient) : String := if client.baseUrl.secure then "wss" else "ws"

/-- The URL of a session's endpoint, without a query. `new URL` keeps its path as it is, since an id
is no dot segment. -/
def endpointUrl (client : EigerClient) (id : Uuid) : String :=
  client.scheme ++ "://" ++ client.baseUrl.host ++
    ("/" ++ ("sessions/" ++ encodeUriComponent id.hyphenated ++ "/cdp"))

/-- `sessionWebSocketUrl`, of the id of a session. -/
def sessionWebSocketUrl (client : EigerClient) (id : Uuid) : String :=
  match client.givenToken with
  | some token => client.endpointUrl id ++ "?" ++ ("token=" ++ formWritten token)
  | none => client.endpointUrl id

/-- The authorization header that `request` sets, if there is one and it does not throw. -/
def authorization (client : EigerClient) : Option (Option HeaderValue) :=
  match client.givenToken with
  | some token => (headersSet ("Bearer " ++ token)).map some
  | none => some none

/-- The headers of `request` that the server reads, if it does not throw. -/
def requestHeaders (client : EigerClient) : Option HeaderMap :=
  client.authorization.map fun authorization =>
    { authorization, host := some (utf8 client.baseUrl.host), xForwardedProto := none }

end EigerClient

/-! ## The URL of a session -/

/-- ASCII is written as its own bytes. -/
theorem utf8_ascii {cs : List Char} (h : ∀ c ∈ cs, c.toNat < 128) :
    cs.flatMap String.utf8EncodeChar = cs.map fun c => UInt8.ofNat c.toNat := by
  induction cs with
  | nil => rfl
  | cons c cs ih =>
    obtain ⟨hc, hcs⟩ := List.forall_mem_cons.1 h
    rw [List.flatMap_cons, utf8EncodeChar_ascii hc, ih hcs]
    rfl

/-- An ASCII character is that of its byte. -/
theorem charOfNat_byte {c : Char} (h : c.toNat < 128) :
    Char.ofNat (UInt8.ofNat c.toNat).toNat = c := by
  rw [UInt8.toNat_ofNat', Nat.mod_eq_of_lt (Nat.lt_trans h (by decide)), Char.ofNat_toNat]

/-- What `encodeURIComponent` has nothing to do with. -/
theorem encodeUriComponent_plain {s : String} (h : ∀ c ∈ s.toList, c.toNat < 128 ∧
    isComponentPlain (UInt8.ofNat c.toNat) = true) : encodeUriComponent s = s := by
  have hplain : ∀ c ∈ s.toList, escapeByte isComponentPlain (UInt8.ofNat c.toNat)
      = [UInt8.ofNat c.toNat] := fun c hc => if_pos (h c hc).2
  have hchars : s.toList.map ((fun b => Char.ofNat b.toNat) ∘ fun c => UInt8.ofNat c.toNat) =
      s.toList := by
    conv_rhs => rw [← List.map_id s.toList]
    exact List.map_congr_left fun c hc => charOfNat_byte (h c hc).1
  rw [encodeUriComponent, utf8, utf8_ascii fun c hc => (h c hc).1, List.flatMap_map,
    List.flatMap_congr hplain, ← List.map_eq_flatMap, asciiText, List.map_map, hchars,
    String.ofList_toList]

/-- A session's id is such a text. -/
theorem encodeUriComponent_hyphenated (id : Uuid) :
    encodeUriComponent id.hyphenated = id.hyphenated := by
  have hdigit : ∀ n < 16, (Nat.digitChar n).toNat < 128 ∧
      isComponentPlain (UInt8.ofNat (Nat.digitChar n).toNat) = true := by decide
  refine encodeUriComponent_plain fun c hc => ?_
  obtain rfl | ⟨n, hn, rfl⟩ := mem_hyphenated hc
  · decide
  · exact hdigit n hn

/-- The path that the client writes is the one of the session's endpoint. -/
theorem client_path (id : Uuid) :
    "/" ++ ("sessions/" ++ encodeUriComponent id.hyphenated ++ "/cdp") = cdpPath id := by
  rw [encodeUriComponent_hyphenated, cdpPath, ← String.toList_inj]
  simp [String.toList_append]

/-- The server reads a token from a query as the client writes it. -/
theorem extract_formWritten {codec : UrlCodec} (hcodec : codec.Standard) (token : String) :
    codec.extract ("token=" ++ formWritten token) = some (.ofToken (some token)) := by
  apply hcodec.accepts
  have hraw : ("token=" ++ formWritten token).toList =
      "token".toList ++ '=' :: (formWritten token).toList := by
    rw [String.toList_append]
    rfl
  have hmark : '&' ∉ "token".toList ++ '=' :: (formWritten token).toList := by
    rw [List.mem_append, List.mem_cons, not_or, not_or]
    exact ⟨by decide, by decide,
      not_mem_formWritten (by decide) (by decide) (by decide) (by decide) token⟩
  have hkey : formText codec.lossy "token" = "token" := hcodec.formText_eq (by decide)
  have hvalue : formText codec.lossy (formWritten token) = token := by
    refine hcodec.formText_eq ?_
    rw [formWritten, utf8_asciiText fun _ => toNat_lt_of_mem_formEncode, formDecode_formEncode]
  rw [formPairs, hraw, splitOn_single hmark, List.filter_cons_of_pos (by simp), List.filter_nil,
    List.map_singleton, rawPair_append (by decide), hkey, hvalue]

/-- The path of a session has no character that ends it. -/
theorem endsPath_sessions (id : Uuid) :
    ∀ c ∈ ("sessions/" ++ encodeUriComponent id.hyphenated ++ "/cdp").toList,
      endsPath c = false := by
  rw [encodeUriComponent_hyphenated]
  simp only [String.toList_append, List.forall_mem_append]
  exact ⟨⟨forall_eq_false rfl, endsPath_hyphenated id⟩, forall_eq_false rfl⟩

/-- **The URL of a session is usable with the right token.** The URL that the client makes of an id
leads to the session at the client's host, and authorizes it there, exactly if the client has the
server's token and this is not empty. -/
theorem session_url_usable_iff {codec : UrlCodec} (hcodec : codec.Standard) (client : EigerClient)
    (token : String) (id : Uuid) :
    CdpUrlUsable codec token client.baseUrl.host id (client.sessionWebSocketUrl id) ↔
      token ≠ "" ∧ client.token = some token := by
  have hscheme : ':' ∉ client.scheme.toList := by
    rw [EigerClient.scheme]
    split <;> decide
  have hgiven : ∀ given, client.givenToken = some given ↔ client.token = some given ∧ given ≠ "" :=
    fun given => by simp [EigerClient.givenToken, Option.filter_eq_some_iff]
  cases hclient : client.givenToken with
  | none =>
    have hparse : parse (client.sessionWebSocketUrl id) =
        some ⟨client.baseUrl.host, cdpPath id, none⟩ := by
      rw [EigerClient.sessionWebSocketUrl, hclient, ← client_path]
      exact parse_append_path hscheme client.baseUrl.plain (endsPath_sessions id)
    constructor
    · rintro ⟨raw, query, hurl, -⟩
      cases hparse.symm.trans hurl
    · rintro ⟨hne, htoken⟩
      cases hclient.symm.trans ((hgiven token).2 ⟨htoken, hne⟩)
  | some given =>
    have hquery : '#' ∉ ("token=" ++ formWritten given).toList := by
      rw [String.toList_append, List.mem_append, not_or]
      exact ⟨by decide, not_mem_formWritten (by decide) (by decide) (by decide) (by decide) given⟩
    have hparse : parse (client.sessionWebSocketUrl id) =
        some ⟨client.baseUrl.host, cdpPath id, some ("token=" ++ formWritten given)⟩ := by
      rw [EigerClient.sessionWebSocketUrl, hclient, ← client_path]
      exact parse_append hscheme client.baseUrl.plain (endsPath_sessions id) hquery
    obtain ⟨htoken, hne⟩ := (hgiven given).1 hclient
    constructor
    · rintro ⟨raw, query, hurl, hextract, hauth⟩
      cases hparse.symm.trans hurl
      cases (extract_formWritten hcodec given).symm.trans hextract
      obtain rfl : given = token := Option.some.inj (authorized_of_no_header.1 hauth)
      exact ⟨hne, htoken⟩
    · rintro ⟨-, hsame⟩
      obtain rfl : given = token := Option.some.inj (htoken.symm.trans hsame)
      exact ⟨_, _, hparse, extract_formWritten hcodec given, authorized_of_no_header.2 rfl⟩

/-- A client of a server on a port of this machine. -/
def localClient (token : String) : EigerClient :=
  { baseUrl := ⟨false, "127.0.0.1:3000", forall_eq_false rfl⟩, token := some token }

/-- A token with the marks of a query string in it, beyond ASCII, is no hindrance to that. -/
theorem session_url_usable_marks : CdpUrlUsable .reference "a b&c=é+%2B" "127.0.0.1:3000" 0
    ((localClient "a b&c=é+%2B").sessionWebSocketUrl 0) :=
  (session_url_usable_iff UrlCodec.standard_reference (localClient "a b&c=é+%2B") "a b&c=é+%2B" 0).2
    ⟨by decide, rfl⟩

/-! ## The header of a request -/

/-- The server reads a header value with this character. -/
def isVisible (c : Char) : Bool := (32 ≤ c.toNat && c.toNat < 127) || c.toNat = 9

/-- A text without the blanks at its end. -/
def trimBlanksEnd (s : String) : String := .ofList (s.toList.rdropWhile isHttpBlank)

/-- A visible character is ASCII, and no header value is refused for it. -/
theorem isVisible_spec {c : Char} (h : isVisible c = true) :
    c.toNat < 128 ∧ c ≠ '\x00' ∧ c ≠ '\n' ∧ c ≠ '\r' := by
  have hcode : 32 ≤ c.toNat ∧ c.toNat < 127 ∨ c.toNat = 9 := by
    simpa [isVisible] using h
  refine ⟨by omega, ?_, ?_, ?_⟩
  all_goals
    rintro rfl
    revert hcode
    decide

/-- The server reads the bytes of a Latin-1 text if it is visible, and reads the text. -/
theorem toStr_latin {cs : List Char} (h : ∀ c ∈ cs, c.toNat < 256) :
    HeaderValue.toStr (cs.map fun c => UInt8.ofNat c.toNat) =
      if cs.all isVisible then some (.ofList cs) else none := by
  have hbyte : ∀ c ∈ cs, (UInt8.ofNat c.toNat).toNat = c.toNat := fun c hc => by
    rw [UInt8.toNat_ofNat', Nat.mod_eq_of_lt (h c hc)]
  have hall : (cs.map fun c => UInt8.ofNat c.toNat).all
      (fun b => (32 ≤ b.toNat && b.toNat < 127) || b.toNat == 9) = cs.all isVisible := by
    rw [List.all_map, Bool.eq_iff_iff, List.all_eq_true, List.all_eq_true]
    refine forall₂_congr fun c hc => ?_
    simp [isVisible, hbyte c hc]
  have hchars : (cs.map fun c => UInt8.ofNat c.toNat).map (fun b => Char.ofNat b.toNat) = cs := by
    rw [List.map_map]
    conv_rhs => rw [← List.map_id cs]
    refine List.map_congr_left fun c hc => ?_
    show Char.ofNat (UInt8.ofNat c.toNat).toNat = c
    rw [hbyte c hc, Char.ofNat_toNat]
  rw [HeaderValue.toStr, hall, hchars]

/-- A character of a text is sent, or is a blank. -/
theorem mem_stripBlanks {cs : List Char} {c : Char} (h : c ∈ cs) :
    c ∈ stripBlanks cs ∨ isHttpBlank c = true := by
  rw [← List.takeWhile_append_dropWhile (p := isHttpBlank) (l := cs), List.mem_append] at h
  obtain hfront | hrest := h
  · exact .inr (List.mem_takeWhile_imp hfront)
  · rw [← List.rdropWhile_append_rtakeWhile (p := isHttpBlank) (l := cs.dropWhile isHttpBlank),
      List.mem_append] at hrest
    obtain hsent | hback := hrest
    · exact .inl hsent
    · exact .inr (List.mem_rtakeWhile_imp hback)

/-- **What the server reads of a header that is set**: what is sent of it, if that is visible. -/
theorem toStr_headersSet (s : String) :
    (headersSet s).bind HeaderValue.toStr =
      if (stripBlanks s.toList).all isVisible then some (.ofList (stripBlanks s.toList))
      else none := by
  have hset : headersSet s = if s.toList.all (·.toNat < 256) &&
      (stripBlanks s.toList).all (fun c => c ≠ '\x00' && c ≠ '\n' && c ≠ '\r') then
        some ((stripBlanks s.toList).map fun c => UInt8.ofNat c.toNat) else none := rfl
  rw [hset]
  split
  · next hvalid =>
    rw [Bool.and_eq_true, List.all_eq_true, List.all_eq_true] at hvalid
    have hlatin : ∀ c ∈ stripBlanks s.toList, c.toNat < 256 := fun c hc =>
      of_decide_eq_true (hvalid.1 c
        ((List.dropWhile_sublist _).subset ((List.rdropWhile_prefix isHttpBlank _).subset hc)))
    exact toStr_latin hlatin
  · next hinvalid =>
    have hhidden : ¬ (stripBlanks s.toList).all isVisible = true := by
      intro hvisible
      rw [List.all_eq_true] at hvisible
      apply hinvalid
      rw [Bool.and_eq_true, List.all_eq_true, List.all_eq_true]
      constructor
      · intro c hc
        obtain hsent | hblank := mem_stripBlanks hc
        · have hcode := (isVisible_spec (hvisible c hsent)).1
          exact decide_eq_true (by omega)
        · simp only [isHttpBlank, Bool.or_eq_true, decide_eq_true_eq] at hblank
          obtain ((rfl | rfl) | rfl) | rfl := hblank <;> decide
      · intro c hc
        obtain ⟨-, hnul, hline, hreturn⟩ := isVisible_spec (hvisible c hc)
        simp [hnul, hline, hreturn]
    rw [if_neg hhidden]
    rfl

/-- What is dropped at the end of two texts is dropped of the second, and of the first if nothing is
left of that. -/
theorem rdropWhile_append (p : Char → Bool) (front back : List Char) :
    (front ++ back).rdropWhile p =
      if back.rdropWhile p = [] then front.rdropWhile p else front ++ back.rdropWhile p := by
  induction back using List.reverseRecOn with
  | nil => simp
  | append_singleton back c ih =>
    rw [← List.append_assoc, List.rdropWhile_concat, List.rdropWhile_concat]
    cases p c with
    | true => simpa using ih
    | false => simp

/-- What is sent of a value of the scheme `Bearer`. -/
theorem stripBlanks_bearer (cs : List Char) : stripBlanks ("Bearer ".toList ++ cs) =
    if cs.rdropWhile isHttpBlank = [] then "Bearer".toList
    else "Bearer ".toList ++ cs.rdropWhile isHttpBlank := by
  have hfront : ("Bearer ".toList ++ cs).dropWhile isHttpBlank = "Bearer ".toList ++ cs := rfl
  have hscheme : "Bearer ".toList.rdropWhile isHttpBlank = "Bearer".toList := by decide
  rw [stripBlanks, hfront, rdropWhile_append, hscheme]

/-- A text has its front stripped. -/
theorem stripPrefix_append (p : String) (cs : List Char) :
    stripPrefix (.ofList (p.toList ++ cs)) p = some (.ofList cs) := by
  have hstarts : startsWith (.ofList (p.toList ++ cs)) p = true := by
    rw [startsWith_iff, String.toList_ofList]
    exact List.prefix_append _ _
  rw [stripPrefix, if_pos hstarts, String.toList_ofList, List.drop_left]

/-- What the server reads of the client's header: the token without the blanks at its end, if this
is visible and not empty. -/
theorem bearer_headersSet {token expected : String} :
    ((headersSet ("Bearer " ++ token)).bind HeaderValue.toStr).bind (stripPrefix · "Bearer ")
        = some expected ↔
      expected ≠ "" ∧ expected.toList.all isVisible = true ∧ trimBlanksEnd token = expected := by
  rw [toStr_headersSet, String.toList_append, stripBlanks_bearer, trimBlanksEnd]
  generalize token.toList.rdropWhile isHttpBlank = left
  cases left with
  | nil =>
    have hnone : stripPrefix (.ofList "Bearer".toList) "Bearer " = none := by decide
    have hvisible : "Bearer".toList.all isVisible = true := by decide
    rw [if_pos rfl, if_pos hvisible, Option.bind_some, hnone]
    constructor
    · intro h
      cases h
    · rintro ⟨hne, -, rfl⟩
      exact absurd rfl hne
  | cons c cs =>
    have hbearer : "Bearer ".toList.all isVisible = true := by decide
    rw [if_neg (List.cons_ne_nil c cs), List.all_append, hbearer, Bool.true_and]
    constructor
    · intro h
      split at h
      · next hvisible =>
        rw [Option.bind_some, stripPrefix_append] at h
        obtain rfl := Option.some.inj h
        refine ⟨fun hempty => ?_, by rwa [String.toList_ofList], rfl⟩
        have hnil := congrArg String.toList hempty
        rw [String.toList_ofList] at hnil
        cases hnil
      · cases h
    · rintro ⟨-, hvisible, rfl⟩
      rw [String.toList_ofList] at hvisible
      rw [if_pos hvisible, Option.bind_some, stripPrefix_append]

/-- A request of the client is authorized by what the server reads of its header. -/
theorem client_authorized {client : EigerClient} {token : String} :
    (∃ headers, client.requestHeaders = some headers ∧
      authorized (some token) headers none = true) ↔
      ∃ value, client.authorization = some (some value) ∧
        (HeaderValue.toStr value).bind (stripPrefix · "Bearer ") = some token := by
  constructor
  · rintro ⟨headers, hheaders, hauth⟩
    obtain ⟨authorization, hauthorization, rfl⟩ := Option.map_eq_some_iff.1 hheaders
    obtain hquery | hbearer := authorized_iff.1 hauth
    · cases hquery
    · cases authorization with
      | none => cases hbearer
      | some value => exact ⟨value, hauthorization, hbearer⟩
  · rintro ⟨value, hvalue, hbearer⟩
    refine ⟨_, Option.map_eq_some_iff.2 ⟨some value, hvalue, rfl⟩, ?_⟩
    exact authorized_iff.2 (.inr hbearer)

/-- **When a client's requests are authorized.** A request of the client is authorized by a server
with a token exactly if the token is not empty and visible ASCII, and is what the client has without
the blanks at the end. -/
theorem client_authorized_iff (client : EigerClient) (token : String) :
    (∃ headers, client.requestHeaders = some headers ∧
      authorized (some token) headers none = true) ↔
      token ≠ "" ∧ token.toList.all isVisible = true ∧
        client.token.map trimBlanksEnd = some token := by
  have hgiven : ∀ given, client.givenToken = some given ↔ client.token = some given ∧ given ≠ "" :=
    fun given => by simp [EigerClient.givenToken, Option.filter_eq_some_iff]
  rw [client_authorized]
  cases hclient : client.givenToken with
  | none =>
    rw [EigerClient.authorization, hclient]
    constructor
    · rintro ⟨value, hvalue, -⟩
      cases hvalue
    · rintro ⟨hne, -, htoken⟩
      obtain ⟨given, hsome, rfl⟩ := Option.map_eq_some_iff.1 htoken
      have hempty : given = "" := by
        by_contra hgivenNe
        cases hclient.symm.trans ((hgiven given).2 ⟨hsome, hgivenNe⟩)
      subst hempty
      exact absurd (by decide) hne
  | some given =>
    obtain ⟨htoken, -⟩ := (hgiven given).1 hclient
    rw [htoken, Option.map_some, Option.some.injEq, ← bearer_headersSet,
      EigerClient.authorization, hclient]
    constructor
    · rintro ⟨value, hvalue, hbearer⟩
      obtain ⟨_, hset, hsame⟩ := Option.map_eq_some_iff.1 hvalue
      cases hsame
      rw [hset]
      exact hbearer
    · intro hbearer
      obtain ⟨text, hread, hstrip⟩ := Option.bind_eq_some_iff.1 hbearer
      obtain ⟨value, hset, htext⟩ := Option.bind_eq_some_iff.1 hread
      exact ⟨value, Option.map_eq_some_iff.2 ⟨value, hset, rfl⟩, by rw [htext]; exact hstrip⟩

end Eiger

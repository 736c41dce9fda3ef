import AuthService.ClientIp

/-!
# Who decides the address of a client

The tokens of the forwarding headers count from the right, up to the first that is no trusted proxy. What a client writes to the
left of it has no influence.
-/

namespace AuthService

open Urllib

/-- What a token of the headers is to the scan. -/
inductive Hop (L : IpAddresses) where
  | bad
  | trusted (address : L.Address)
  | untrusted (address : L.Address)

section ClientIp

variable (L : IpAddresses) (networks : List L.Network)

/-- A token is bad when it is blank or no address. -/
def hop (token : Text) : Hop L :=
  if L.strip token = [] then .bad
  else match parseForwardedForIp L (L.strip token) with
    | none => .bad
    | some address => if isTrusted L address networks then .trusted address else .untrusted address

/-- The tokens of the headers, from left to right. -/
def forwardedTokens (forwardedFor : List Text) : List Text := (joinedForwardedFor forwardedFor).splitOn ','

/-- The scan of the tokens stops. -/
def Stops (tokens : List Text) : Prop := ∃ token ∈ tokens, ∀ address, hop L networks token ≠ .trusted address

end ClientIp

namespace ClientIpAux

variable {L : IpAddresses} {networks : List L.Network} {peer : L.Address}

/-- One step of the scan, by what the token is. -/
theorem scan_cons (token : Text) (rest : List Text) (leftmost : L.Address) :
    scanForwardedFor L networks peer (token :: rest) leftmost =
      match hop L networks token with
      | .bad => peer
      | .trusted address => scanForwardedFor L networks peer rest address
      | .untrusted address => address := by
  rw [scanForwardedFor, hop]
  split
  · rfl
  cases parseForwardedForIp L (L.strip token) with
  | none => rfl
  | some address =>
    dsimp only
    split <;> rfl

variable (peer) in
/-- Trusted tokens are passed over. -/
theorem scan_trusted (after rest : List Text) (h : ∀ t ∈ after, ∃ address, hop L networks t = .trusted address)
    (leftmost : L.Address) : ∃ leftmost', scanForwardedFor L networks peer (after ++ rest) leftmost =
      scanForwardedFor L networks peer rest leftmost' := by
  induction after generalizing leftmost with
  | nil => exact ⟨leftmost, rfl⟩
  | cons t after ih =>
    obtain ⟨address, haddress⟩ := h t List.mem_cons_self
    obtain ⟨leftmost', hscan⟩ := ih (fun t' ht' => h t' (List.mem_cons_of_mem _ ht')) address
    refine ⟨leftmost', ?_⟩
    rw [List.cons_append, scan_cons, haddress]
    exact hscan

/-- The first token from the right that is not trusted decides. -/
theorem resolve_stop {forwardedFor : Text} {before after : List Text} {token : Text}
    (hsplit : forwardedFor.splitOn ',' = before ++ token :: after)
    (hafter : ∀ t ∈ after, ∃ address, hop L networks t = .trusted address)
    (hstop : ∀ address, hop L networks token ≠ .trusted address) :
    resolveForwardedForClientIp L forwardedFor networks peer =
      match hop L networks token with
      | .untrusted address => address
      | _ => peer := by
  have hreverse : (forwardedFor.splitOn ',').reverse = after.reverse ++ token :: before.reverse := by
    rw [hsplit, List.reverse_append, List.reverse_cons, List.append_assoc, List.singleton_append]
  obtain ⟨leftmost, hscan⟩ := scan_trusted peer after.reverse (token :: before.reverse)
    (fun t ht => hafter t (List.mem_reverse.1 ht)) peer
  rw [resolveForwardedForClientIp, hreverse, hscan, scan_cons]
  cases hhop : hop L networks token with
  | bad => rfl
  | trusted address => exact absurd hhop (hstop address)
  | untrusted address => rfl

/-- When every token is a trusted address, the leftmost is the result. -/
theorem resolve_leftmost {forwardedFor token : Text} {after : List Text} {address : L.Address}
    (hsplit : forwardedFor.splitOn ',' = token :: after)
    (hafter : ∀ t ∈ after, ∃ address, hop L networks t = .trusted address) (hhop : hop L networks token = .trusted address) :
    resolveForwardedForClientIp L forwardedFor networks peer = address := by
  obtain ⟨leftmost, hscan⟩ := scan_trusted peer after.reverse [token]
    (fun t ht => hafter t (List.mem_reverse.1 ht)) peer
  rw [resolveForwardedForClientIp, hsplit, List.reverse_cons, hscan, scan_cons, hhop]
  rfl

/-- A list of tokens whose scan stops has a last token at which it does. -/
theorem stops_split {tokens : List Text} (h : Stops L networks tokens) :
    ∃ before token after, tokens = before ++ token :: after ∧
      (∀ t ∈ after, ∃ address, hop L networks t = .trusted address) ∧ ∀ address, hop L networks token ≠ .trusted address := by
  induction tokens with
  | nil =>
    obtain ⟨token, hmem, _⟩ := h
    cases hmem
  | cons t tokens ih =>
    by_cases hrest : Stops L networks tokens
    · obtain ⟨before, token, after, rfl, hafter, hstop⟩ := ih hrest
      exact ⟨t :: before, token, after, rfl, hafter, hstop⟩
    · have htrusted : ∀ t' ∈ tokens, ∃ address, hop L networks t' = .trusted address := by
        intro t' ht'
        by_contra hno
        exact hrest ⟨t', ht', fun address haddress => hno ⟨address, haddress⟩⟩
      obtain ⟨token, hmem, hstop⟩ := h
      rcases List.mem_cons.1 hmem with rfl | hmem
      · exact ⟨[], token, tokens, rfl, htrusted, hstop⟩
      · obtain ⟨address, haddress⟩ := htrusted token hmem
        exact absurd haddress (hstop address)

/-- What comes before tokens whose scan stops has no influence. -/
theorem resolve_prefix {p h : Text} (hstops : Stops L networks (h.splitOn ',')) :
    resolveForwardedForClientIp L (p ++ ',' :: h) networks peer = resolveForwardedForClientIp L h networks peer := by
  obtain ⟨before, token, after, hsplit, hafter, hstop⟩ := stops_split hstops
  have hlong : (p ++ ',' :: h).splitOn ',' = (p.splitOn ',' ++ before) ++ token :: after := by
    rw [List.splitOn_append_cons_self, hsplit, List.append_assoc]
  rw [resolve_stop hlong hafter hstop, resolve_stop hsplit hafter hstop]

/-! ## Several headers -/

/-- Headers are joined by commas. -/
theorem joined_cons_cons (x y : Text) (ys : List Text) :
    joinedForwardedFor (x :: y :: ys) = x ++ ',' :: joinedForwardedFor (y :: ys) := by
  simp [joinedForwardedFor, List.intercalate, List.intersperse]

/-- Two runs of headers are joined by a comma. -/
theorem joined_append {xs : List Text} (hxs : xs ≠ []) (y : Text) (ys : List Text) :
    joinedForwardedFor (xs ++ y :: ys) = joinedForwardedFor xs ++ ',' :: joinedForwardedFor (y :: ys) := by
  induction xs with
  | nil => exact absurd rfl hxs
  | cons x xs ih =>
    cases xs with
    | nil =>
      rw [List.singleton_append, joined_cons_cons]
      simp [joinedForwardedFor, List.intercalate]
    | cons x' xs =>
      rw [List.cons_append, List.cons_append, joined_cons_cons, ← List.cons_append, ih (List.cons_ne_nil _ _), joined_cons_cons,
        List.append_assoc, List.cons_append]

/-- A header value with a client's text before it is that text as a header of its own. -/
theorem joined_split (before after : List Text) (p h : Text) :
    joinedForwardedFor (before ++ (p ++ ',' :: h) :: after) = joinedForwardedFor (before ++ [p]) ++ ',' ::
      joinedForwardedFor (h :: after) := by
  have hhead : joinedForwardedFor ((p ++ ',' :: h) :: after) = joinedForwardedFor (p :: h :: after) := by
    rw [joined_cons_cons]
    cases after with
    | nil => simp [joinedForwardedFor, List.intercalate]
    | cons y ys => rw [joined_cons_cons, joined_cons_cons, List.append_assoc, List.cons_append]
  have hwhole : joinedForwardedFor (before ++ (p ++ ',' :: h) :: after) = joinedForwardedFor (before ++ p :: h :: after) := by
    cases before with
    | nil => exact hhead
    | cons x xs =>
      rw [joined_append (List.cons_ne_nil _ _), joined_append (List.cons_ne_nil _ _), hhead]
  rw [hwhole, ← joined_append (by simp), List.append_assoc, List.singleton_append]

/-- What stands before the deciding header does not change the address. -/
theorem resolve_prefixed (before after : List Text) (p h : Text)
    (hstops : Stops L networks (forwardedTokens (h :: after))) :
    resolveForwardedForClientIp L (joinedForwardedFor (before ++ (p ++ ',' :: h) :: after)) networks peer =
      resolveForwardedForClientIp L (joinedForwardedFor (before ++ h :: after)) networks peer := by
  rw [joined_split, resolve_prefix hstops]
  cases before with
  | nil => rfl
  | cons x xs => rw [joined_append (List.cons_ne_nil _ _), resolve_prefix hstops]

/-! ## The function -/

/-- From an untrusted peer the headers are not read. -/
theorem resolve_untrusted {request : ForwardedRequest} (hpeer : parseDirectClientIp L request = some peer)
    (huntrusted : networks = [] ∨ isTrusted L peer networks = false) (headers : List Text) :
    resolveWithin L { request with forwardedFor := headers } networks = some (L.str peer) := by
  have hpeer' : parseDirectClientIp L { request with forwardedFor := headers } = some peer := hpeer
  rw [resolveWithin, hpeer', Option.map_some, if_pos (by simpa using huntrusted)]

/-- No header is one blank token. -/
theorem resolve_trusted {request : ForwardedRequest} (hpeer : parseDirectClientIp L request = some peer)
    (htrusted : isTrusted L peer networks = true) (headers : List Text) :
    resolveWithin L { request with forwardedFor := headers } networks =
      some (L.str (resolveForwardedForClientIp L (joinedForwardedFor headers) networks peer)) := by
  have hpeer' : parseDirectClientIp L { request with forwardedFor := headers } = some peer := hpeer
  have hnetworks : networks ≠ [] := by
    rintro rfl
    cases htrusted
  rw [resolveWithin, hpeer', Option.map_some, if_neg (by simp [hnetworks, htrusted])]
  dsimp only
  split
  · rename_i hnone
    rw [hnone, resolveForwardedForClientIp, List.splitOn_nil, List.reverse_singleton, scanForwardedFor, if_pos L.strip_nil]
  · rfl

/-! ## IPv4 -/

/-- A decimal number without leading zeros. -/
def decimal (digits : Text) : Option Nat :=
  if digits ≠ [] ∧ digits.all Char.isDigit ∧ (digits.head? = some '0' → digits.length = 1) then
    some (digits.foldl (fun n c => 10 * n + (c.toNat - '0'.toNat)) 0)
  else none

/-- The number of an IPv4 address in its four octets. -/
def dottedQuad (value : Text) : Option Nat :=
  match (value.splitOn '.').mapM decimal with
  | some [a, b, c, d] => if a < 256 ∧ b < 256 ∧ c < 256 ∧ d < 256 then some (((a * 256 + b) * 256 + c) * 256 + d) else none
  | _ => none

/-- IPv4 alone: an address is its text, a network is the number of an address and how many of its bits count. -/
def ipv4 : IpAddresses where
  Address := Text
  Network := Nat × Nat
  ipAddress value := (dottedQuad value).map fun _ => value
  ipNetwork value :=
    match value.splitOn '/' with
    | [address] => (dottedQuad address).map fun n => (n, 32)
    | [address, bits] => (dottedQuad address).bind fun n => (decimal bits).bind fun b => if b ≤ 32 then some (n, b) else none
    | _ => none
  ipv4Mapped _ := none
  str := id
  contains network address := (dottedQuad address).any fun n => n / 2 ^ (32 - network.2) = network.1 / 2 ^ (32 - network.2)
  strip s := ((s.dropWhile (· = ' ')).reverse.dropWhile (· = ' ')).reverse
  strip_nil := rfl
  isDigit := Char.isDigit

end ClientIpAux

open ClientIpAux

/-- The address of a client is that of the peer, unless the peer is a trusted proxy. Then it is the first untrusted address from
the right that only trusted ones follow, the leftmost when all are trusted, and the peer again when a bad token comes first. So
nothing that a client writes before a value at whose tokens the scan stops changes the result. -/
theorem client_ip_resolved (L : IpAddresses) (request : ForwardedRequest) (trustedProxyIps : Text) (networks : List L.Network)
    (hnetworks : parseTrustedProxyNetworks L trustedProxyIps = some networks) :
    (parseDirectClientIp L request = none → resolveClientIp L request trustedProxyIps = some none) ∧
    (∀ peer, parseDirectClientIp L request = some peer →
      ((networks = [] ∨ isTrusted L peer networks = false) → ∀ headers,
        resolveClientIp L { request with forwardedFor := headers } trustedProxyIps = some (some (L.str peer))) ∧
      (isTrusted L peer networks = true →
        (∀ before token after, forwardedTokens request.forwardedFor = before ++ token :: after →
          (∀ t ∈ after, ∃ address, hop L networks t = .trusted address) →
          (∀ address, hop L networks token = .untrusted address →
            resolveClientIp L request trustedProxyIps = some (some (L.str address))) ∧
          (hop L networks token = .bad → resolveClientIp L request trustedProxyIps = some (some (L.str peer))) ∧
          (∀ address, before = [] → hop L networks token = .trusted address →
            resolveClientIp L request trustedProxyIps = some (some (L.str address)))))) ∧
    ∀ before h after p, request.forwardedFor = before ++ h :: after → Stops L networks (forwardedTokens (h :: after)) →
      resolveClientIp L { request with forwardedFor := before ++ (p ++ ',' :: h) :: after } trustedProxyIps =
        resolveClientIp L request trustedProxyIps := by
  have hresolve : ∀ headers peer, parseDirectClientIp L request = some peer →
      resolveClientIp L { request with forwardedFor := headers } trustedProxyIps =
        some (resolveWithin L { request with forwardedFor := headers } networks) := by
    intro headers peer hpeer
    have hpeer' : parseDirectClientIp L { request with forwardedFor := headers } = some peer := hpeer
    rw [resolveClientIp, hpeer', hnetworks, Option.map_some]
  refine ⟨fun hnone => by rw [resolveClientIp, hnone], ?_, ?_⟩
  · intro peer hpeer
    refine ⟨?_, ?_⟩
    · intro huntrusted headers
      rw [hresolve headers peer hpeer, resolve_untrusted hpeer huntrusted]
    · intro htrusted before token after hsplit hafter
      have hwithin : resolveClientIp L request trustedProxyIps = some (some (L.str (resolveForwardedForClientIp L
          (joinedForwardedFor request.forwardedFor) networks peer))) := by
        rw [hresolve request.forwardedFor peer hpeer, resolve_trusted hpeer htrusted request.forwardedFor]
      rw [hwithin]
      refine ⟨?_, ?_, ?_⟩
      · intro address hhop
        rw [resolve_stop hsplit hafter (by simp [hhop]), hhop]
      · intro hhop
        rw [resolve_stop hsplit hafter (by simp [hhop]), hhop]
      · rintro address rfl hhop
        rw [resolve_leftmost hsplit hafter hhop]
  · intro before h after p hheaders hstops
    cases hpeer : parseDirectClientIp L request with
    | none =>
      have hpeer' : parseDirectClientIp L { request with forwardedFor := before ++ (p ++ ',' :: h) :: after } = none := hpeer
      rw [resolveClientIp, hpeer', resolveClientIp, hpeer]
    | some peer =>
      rw [hresolve _ peer hpeer, hresolve request.forwardedFor peer hpeer]
      by_cases htrusted : isTrusted L peer networks = true
      · rw [resolve_trusted hpeer htrusted, resolve_trusted hpeer htrusted request.forwardedFor, hheaders, resolve_prefixed _ _ _ _ hstops]
      · have huntrusted := Bool.eq_false_iff.2 htrusted
        rw [resolve_untrusted hpeer (Or.inr huntrusted), resolve_untrusted hpeer (Or.inr huntrusted) request.forwardedFor]

/-- Behind the proxies `10.0.0.0/8` a client that writes the address `198.51.100.99` is still known by its own. -/
theorem client_ip_resolved_behind_proxies :
    resolveClientIp ipv4 ⟨some "10.0.0.5".toList, ["198.51.100.99,203.0.113.8, 10.0.0.7".toList]⟩ "10.0.0.0/8".toList =
      some (some "203.0.113.8".toList) := by
  have hresolved := client_ip_resolved ipv4 ⟨some "10.0.0.5".toList, ["203.0.113.8, 10.0.0.7".toList]⟩ "10.0.0.0/8".toList
    [(167772160, 8)] rfl
  have hhop : hop ipv4 [(167772160, 8)] "203.0.113.8".toList = .untrusted "203.0.113.8".toList := rfl
  have hclient := hresolved.2.2 [] "203.0.113.8, 10.0.0.7".toList [] "198.51.100.99".toList rfl
    ⟨"203.0.113.8".toList, List.mem_cons_self, fun address htrusted => by
      rw [hhop] at htrusted
      cases htrusted⟩
  have hscan := (hresolved.2.1 "10.0.0.5".toList rfl).2 rfl [] "203.0.113.8".toList [" 10.0.0.7".toList] rfl fun t ht =>
    ⟨"10.0.0.7".toList, by
      rw [List.mem_singleton.1 ht]
      rfl⟩
  exact hclient.trans (hscan.1 _ hhop)

end AuthService

import DhtCrawler.KrpcModel

/-! Which hosts the endpoints visited in a response designate. -/

namespace DhtCrawler

open List

variable {ip : Ipv6Addr} {host : Ipv4Addr} {port : UInt16} {node : NodeTuple}

def toIpv4Mapped (ip : Ipv6Addr) : Option Ipv4Addr :=
  if (∀ i : Fin 10, ip[i] = 0) ∧ ip[10] = 0xff ∧ ip[11] = 0xff then some #v[ip[12], ip[13], ip[14], ip[15]]
  else none

def SocketAddr.ipv4Host : SocketAddr → Option Ipv4Addr
  | .v4 ip _ => some ip
  | .v6 ip _ _ _ => toIpv4Mapped ip

def SocketAddr.PublicHost (addr : SocketAddr) : Prop :=
  ∀ ip, addr.ipv4Host = some ip → isValidIpv4NodeAddr ip = true

lemma isValidIpv6NodeAddr_of_mapped (hmapped : toIpv4Mapped ip = some host) :
    isValidIpv6NodeAddr ip = true := by
  have hform : (∀ i : Fin 10, ip[i] = 0) ∧ ip[10] = 0xff ∧ ip[11] = 0xff := by
    by_contra hnot
    rw [toIpv4Mapped, if_neg hnot] at hmapped
    exact absurd hmapped (by simp)
  obtain ⟨hzeros, hten, -⟩ := hform
  have hfirst : ip[0] = 0 := hzeros 0
  have hne (last : UInt8) : (ip == #v[0, 0, 0, 0, 0, 0, 0, 0, 0, 0, 0, 0, 0, 0, 0, last]) = false := by
    refine beq_false_of_ne ?_
    rintro rfl
    exact absurd hten (by decide : (0 : UInt8) ≠ 255)
  simp only [isValidIpv6NodeAddr, hfirst, hne]
  rfl

variable {addr : SocketAddr} {netmode : NetMode} {response : DhtResponse}

lemma port_ne_zero_of_valid (hvalid : isValidNodeAddr addr = true) : addr.port ≠ 0 := by
  intro hport
  simp [isValidNodeAddr, hport] at hvalid

lemma isValidNodeAddr_of_mapped {flowinfo scopeId : UInt32}
    (hmapped : toIpv4Mapped ip = some host) (hport : port ≠ 0) :
    isValidNodeAddr (.v6 ip port flowinfo scopeId) = true := by
  simp [isValidNodeAddr, SocketAddr.port, hport, isValidIpv6NodeAddr_of_mapped hmapped]

lemma publicHost_v4_of_valid {ip : Ipv4Addr} (hvalid : isValidNodeAddr (.v4 ip port) = true) :
    (SocketAddr.v4 ip port).PublicHost := by
  intro host hhost
  obtain rfl : ip = host := Option.some.inj hhost
  have hport : port ≠ 0 := port_ne_zero_of_valid hvalid
  simpa [isValidNodeAddr, SocketAddr.port, hport] using hvalid

/-! ### The endpoints of a response -/

def visitedEndpoints (response : DhtResponse) (netmode : NetMode) : List SocketAddr :=
  responsePeers response netmode ++ (responseNodes response netmode).map NodeTuple.addr

def carriedV6 (response : DhtResponse) : List SocketAddr :=
  ((response.values.getD []).filterMap compactPeer).filter SocketAddr.isIpv6 ++ match response.nodes6 with
    | none => []
    | some bytes =>
      if bytes.length % 38 = 0 then (chunksExact 38 bytes).map fun chunk => (compactV6 chunk).addr else []

lemma mem_compactNodes {size : ℕ} {decode : List UInt8 → NodeTuple} {field : Option (List UInt8)}
    :
    node ∈ compactNodes size decode field ↔ ∃ bytes, field = some bytes ∧ bytes.length % size = 0 ∧
        (∃ chunk ∈ chunksExact size bytes, decode chunk = node) ∧ isValidNodeAddr node.addr = true := by
  cases field with
  | none => simp [compactNodes]
  | some bytes =>
    by_cases hsize : bytes.length % size = 0
    · simp [compactNodes, hsize]
    · simp [compactNodes, hsize]

lemma mem_responsePeers :
    addr ∈ responsePeers response netmode ↔
      addr ∈ (response.values.getD []).filterMap compactPeer ∧ addrAllowedByNetmode addr netmode = true ∧
        isValidNodeAddr addr = true := by
  rw [responsePeers, mem_filter, Bool.and_eq_true]

lemma mem_responseNodes :
    node ∈ responseNodes response netmode ↔
      (netmode ≠ .ipv6Only ∧ node ∈ compactNodes 26 compactV4 response.nodes) ∨
        (netmode ≠ .ipv4Only ∧ node ∈ compactNodes 38 compactV6 response.nodes6) := by
  rw [responseNodes, mem_append]
  cases netmode <;> simp

lemma mem_carriedV6 :
    addr ∈ carriedV6 response ↔ (addr ∈ (response.values.getD []).filterMap compactPeer ∧ addr.isIpv6 = true) ∨
        ∃ bytes, response.nodes6 = some bytes ∧ bytes.length % 38 = 0 ∧
          ∃ chunk ∈ chunksExact 38 bytes, (compactV6 chunk).addr = addr := by
  cases hfield : response.nodes6 with
  | none => simp [carriedV6, hfield]
  | some bytes =>
    by_cases hsize : bytes.length % 38 = 0
    · simp [carriedV6, hfield, hsize]
    · simp [carriedV6, hfield, hsize]

lemma isIpv6_of_carriedV6 (hcarried : addr ∈ carriedV6 response) : addr.isIpv6 = true := by
  rcases mem_carriedV6.mp hcarried with ⟨-, hfamily⟩ | ⟨_, _, _, _, _, rfl⟩
  · exact hfamily
  · rfl

lemma valid_of_visited (hvisited : addr ∈ visitedEndpoints response netmode) : isValidNodeAddr addr = true := by
  rcases mem_append.mp hvisited with hpeer | hmapped
  · exact (mem_responsePeers.mp hpeer).2.2
  · obtain ⟨node, hnode, rfl⟩ := mem_map.mp hmapped
    rcases mem_responseNodes.mp hnode with ⟨-, hlisted⟩ | ⟨-, hlisted⟩ <;>
      exact (mem_compactNodes.mp hlisted).choose_spec.2.2.2

lemma isIpv4_of_visited (hvisited : addr ∈ visitedEndpoints response .ipv4Only) : addr.isIpv4 = true := by
  rcases mem_append.mp hvisited with hpeer | hmapped
  · exact (mem_responsePeers.mp hpeer).2.1
  · obtain ⟨node, hnode, rfl⟩ := mem_map.mp hmapped
    rcases mem_responseNodes.mp hnode with ⟨-, hlisted⟩ | ⟨hoff, -⟩
    · obtain ⟨_, _, _, ⟨chunk, _, rfl⟩, _⟩ := mem_compactNodes.mp hlisted
      rfl
    · exact absurd rfl hoff

lemma visited_of_carriedV6 (hmode : netmode ≠ .ipv4Only) (hcarried : addr ∈ carriedV6 response)
    (hvalid : isValidNodeAddr addr = true) : addr ∈ visitedEndpoints response netmode := by
  rcases mem_carriedV6.mp hcarried with ⟨hvalue, hfamily⟩ | ⟨bytes, hfield, hsize, chunk, hchunk, rfl⟩
  · have hallowed : addrAllowedByNetmode addr netmode = true := by
      cases netmode with
      | ipv4Only => exact absurd rfl hmode
      | ipv6Only => exact hfamily
      | dualStack => rfl
    exact mem_append_left _ (mem_responsePeers.mpr ⟨hvalue, hallowed, hvalid⟩)
  · have hnode : compactV6 chunk ∈ compactNodes 38 compactV6 response.nodes6 :=
      mem_compactNodes.mpr ⟨bytes, hfield, hsize, ⟨chunk, hchunk, rfl⟩, hvalid⟩
    exact mem_append_right _ (mem_map_of_mem (mem_responseNodes.mpr (.inr ⟨hmode, hnode⟩)))

lemma carriedV6_of_visited (hvisited : addr ∈ visitedEndpoints response netmode)
    (hfamily : addr.isIpv6 = true) : addr ∈ carriedV6 response := by
  rcases mem_append.mp hvisited with hpeer | hmapped
  · exact mem_carriedV6.mpr (.inl ⟨(mem_responsePeers.mp hpeer).1, hfamily⟩)
  · obtain ⟨node, hnode, rfl⟩ := mem_map.mp hmapped
    rcases mem_responseNodes.mp hnode with ⟨-, hlisted⟩ | ⟨-, hlisted⟩
    · obtain ⟨_, _, _, ⟨chunk, _, rfl⟩, _⟩ := mem_compactNodes.mp hlisted
      exact absurd hfamily (by simp [compactV4, SocketAddr.isIpv6])
    · obtain ⟨bytes, hfield, hsize, ⟨chunk, hchunk, rfl⟩, _⟩ := mem_compactNodes.mp hlisted
      exact mem_carriedV6.mpr (.inr ⟨bytes, hfield, hsize, chunk, hchunk, rfl⟩)

/-- The port of a visited endpoint is never zero, and its host passes the IPv4 filter for every visited endpoint
exactly when IPv6 is off or no mapped address in the response, with a port, hides a host the filter refuses. -/
theorem visitedEndpoints_publicHost_iff (response : DhtResponse) (netmode : NetMode) :
    (∀ addr ∈ visitedEndpoints response netmode, addr.port ≠ 0) ∧
      ((∀ addr ∈ visitedEndpoints response netmode, addr.PublicHost) ↔
        netmode = .ipv4Only ∨ ∀ addr ∈ carriedV6 response, addr.port ≠ 0 → addr.PublicHost) := by
  refine ⟨fun addr hvisited => port_ne_zero_of_valid (valid_of_visited hvisited), ?_, ?_⟩
  · intro hpublic
    refine or_iff_not_imp_left.mpr fun hmode addr hcarried hport host hhost => ?_
    cases addr with
    | v4 ip port =>
      exact absurd (isIpv6_of_carriedV6 hcarried) (by simp [SocketAddr.isIpv6])
    | v6 ip port flowinfo scopeId =>
      have hvalid : isValidNodeAddr (.v6 ip port flowinfo scopeId) = true :=
        isValidNodeAddr_of_mapped hhost hport
      exact hpublic _ (visited_of_carriedV6 hmode hcarried hvalid) host hhost
  · intro hsafe addr hvisited
    cases addr with
    | v4 ip port => exact publicHost_v4_of_valid (valid_of_visited hvisited)
    | v6 ip port flowinfo scopeId =>
      rcases hsafe with rfl | hsafe
      · exact absurd (isIpv4_of_visited hvisited) (by simp [SocketAddr.isIpv4])
      · exact hsafe _ (carriedV6_of_visited hvisited rfl) (port_ne_zero_of_valid (valid_of_visited hvisited))

def mappedLoopback : List UInt8 := [0, 0, 0, 0, 0, 0, 0, 0, 0, 0, 0xff, 0xff, 127, 0, 0, 1, 0, 80]

/-- The service on port 80 of the crawler's own host is visited as a peer and as a node. -/
theorem mappedLoopback_visited : let response : DhtResponse :=
      { id := none, nodes := none, nodes6 := some (List.replicate 20 7 ++ mappedLoopback),
        values := some [mappedLoopback], samples := none, interval := none, num := none }
    let addr : SocketAddr := .v6 #v[0, 0, 0, 0, 0, 0, 0, 0, 0, 0, 0xff, 0xff, 127, 0, 0, 1] 80 0 0
    responsePeers response .dualStack = [addr] ∧
      (responseNodes response .dualStack).map NodeTuple.addr = [addr] ∧
      addr.ipv4Host = some #v[127, 0, 0, 1] ∧ isValidIpv4NodeAddr #v[127, 0, 0, 1] = false ∧
      ¬ ∀ visited ∈ visitedEndpoints response .dualStack, visited.PublicHost := by
  intro response addr
  have hpeers : responsePeers response .dualStack = [addr] := by decide
  have hnodes : (responseNodes response .dualStack).map NodeTuple.addr = [addr] := by decide
  have hhost : addr.ipv4Host = some #v[127, 0, 0, 1] := by decide
  have hrefused : isValidIpv4NodeAddr #v[127, 0, 0, 1] = false := by decide
  refine ⟨hpeers, hnodes, hhost, hrefused, fun hpublic => ?_⟩
  have hvisited : addr ∈ visitedEndpoints response .dualStack := by simp [visitedEndpoints, hpeers]
  exact absurd (hpublic addr hvisited _ hhost) (by simp [hrefused])

end DhtCrawler

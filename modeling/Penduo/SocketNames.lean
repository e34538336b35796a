import Penduo.AddressText

set_option autoImplicit false

namespace Penduo

open Sockets

inductive Sockname
  | inet (port : UInt16) (ip : Vector UInt8 4)
  | inet6 (port : UInt16) (flowinfo : UInt32) (ip : Vector UInt8 16) (scopeId : UInt32)

namespace Sockname

variable {inetNtop6 : List UInt8 → String} {inetPton6 : String → Option (List UInt8)} (host : ByteOrder)

def bytes (host : ByteOrder) : Sockname → List UInt8
  | inet port ip =>
    host.store 2 afInet.toNat ++ (ByteOrder.big.store 2 port.toNat ++ (ip.toList ++ (Vector.replicate 8 0).toList))
  | inet6 port flowinfo ip scopeId =>
    host.store 2 afInet6.toNat ++ (ByteOrder.big.store 2 port.toNat ++ (ByteOrder.big.store 4 flowinfo.toNat ++
      (ip.toList ++ host.store 4 scopeId.toNat)))

def endpoint : Sockname → Endpoint
  | inet port ip => ⟨afInet, ip.toList, port.toNat⟩
  | inet6 port _ ip _ => ⟨afInet6, ip.toList, port.toNat⟩

-- What `InetAddress(port, loopback_only, ipv6)` asks for.
def listening (port : UInt16) (loopbackOnly ipv6 : Bool) : Sockname :=
  if ipv6 then inet6 port 0 (if loopbackOnly then InetAddress.in6addrLoopback else InetAddress.in6addrAny) 0
  else inet port (if loopbackOnly then #v[127, 0, 0, 1] else #v[0, 0, 0, 0])

theorem length_bytes_inet (port : UInt16) (ip : Vector UInt8 4) : ((inet port ip).bytes host).length = 16 := by
  simp [bytes]

theorem length_bytes_inet6 (port : UInt16) (flowinfo : UInt32) (ip : Vector UInt8 16) (scopeId : UInt32) :
    ((inet6 port flowinfo ip scopeId).bytes host).length = 28 := by
  simp [bytes]

theorem length_bytes_le (name : Sockname) : (name.bytes host).length ≤ 28 := by
  cases name with
  | inet port ip => simp [length_bytes_inet host]
  | inet6 port flowinfo ip scopeId => simp [length_bytes_inet6 host]

theorem overwrite_bytes (memory : Sockaddr6) (name : Sockname) : (memory.overwrite (name.bytes host)).bytes =
    name.bytes host ++ memory.bytes.drop (name.bytes host).length := by
  have htake := List.take_of_length_le (name.length_bytes_le host)
  simp only [Sockaddr6.overwrite, htake]

end Sockname

theorem field_zero {as bs : List UInt8} {n : ℕ} (h : as.length = n) : field (as ++ bs) 0 n = as := by
  rw [field, List.drop_zero, List.take_left' h]

theorem field_inner {as bs cs : List UInt8} {offset n : ℕ} (has : as.length = offset) (hbs : bs.length = n) :
    field (as ++ (bs ++ cs)) offset n = bs := by
  rw [field, List.drop_left' has, List.take_left' hbs]

namespace Sockname

variable {inetNtop6 : List UInt8 → String} {inetPton6 : String → Option (List UInt8)} (host : ByteOrder)

theorem saFamily_store (family : UInt16) (bs : List UInt8) :
    saFamily host (host.store 2 family.toNat ++ bs) = family := by
  have hlt : family.toNat < 256 ^ 2 := family.toNat_lt
  rw [saFamily, field_zero (host.length_store _ _), host.load_store hlt, UInt16.ofNat_toNat]

theorem load_port (port : UInt16) : ByteOrder.big.load (ByteOrder.big.store 2 port.toNat) = port.toNat :=
  ByteOrder.big.load_store (n := 2) port.toNat_lt

theorem ofAddr_bytes (name : Sockname) (rest : List UInt8) :
    Endpoint.ofAddr host (name.bytes host ++ rest) = name.endpoint := by
  cases name with
  | inet port ip =>
    have hport : field ((inet port ip).bytes host ++ rest) 2 2 = ByteOrder.big.store 2 port.toNat := by
      simp only [bytes, List.append_assoc]
      exact field_inner (host.length_store _ _) (ByteOrder.length_store _ _ _)
    have hip : field ((inet port ip).bytes host ++ rest) 4 4 = ip.toList := by
      simp only [bytes, List.append_assoc]
      rw [← List.append_assoc]
      exact field_inner (by simp) (by simp)
    have hfamily : saFamily host ((inet port ip).bytes host ++ rest) = afInet := by
      simp only [bytes, List.append_assoc, saFamily_store]
    simp only [Endpoint.ofAddr, hfamily, if_true, hport, hip, load_port, endpoint]
  | inet6 port flowinfo ip scopeId =>
    have hport : field ((inet6 port flowinfo ip scopeId).bytes host ++ rest) 2 2 =
        ByteOrder.big.store 2 port.toNat := by
      simp only [bytes, List.append_assoc]
      exact field_inner (host.length_store _ _) (ByteOrder.length_store _ _ _)
    have hip : field ((inet6 port flowinfo ip scopeId).bytes host ++ rest) 8 16 = ip.toList := by
      simp only [bytes, List.append_assoc]
      rw [← List.append_assoc, ← List.append_assoc]
      exact field_inner (by simp) (by simp)
    have hfamily : saFamily host ((inet6 port flowinfo ip scopeId).bytes host ++ rest) = afInet6 := by
      simp only [bytes, List.append_assoc, saFamily_store]
    have hne : afInet6 ≠ afInet := by decide
    simp only [Endpoint.ofAddr, hfamily, hne, if_false, hport, hip, load_port, endpoint]

theorem saFamily_bytes (name : Sockname) (rest : List UInt8) :
    saFamily host (name.bytes host ++ rest) = name.endpoint.family :=
  congrArg Endpoint.family (name.ofAddr_bytes host rest)

theorem endpoint_family (name : Sockname) : name.endpoint.family = afInet ∨ name.endpoint.family = afInet6 := by
  cases name with
  | inet port ip => exact Or.inl rfl
  | inet6 port flowinfo ip scopeId => exact Or.inr rfl

theorem toIpPort_overwrite (h : PresentsInet6 inetNtop6 inetPton6) (memory : Sockaddr6) (name : Sockname) :
    ∃ text, InetAddress.toIpPort host inetNtop6 ⟨memory.overwrite (name.bytes host)⟩ = .ok text ∧
      Endpoint.ofText inetPton6 text = some name.endpoint := by
  have hsize := (memory.overwrite (name.bytes host)).size
  have hbytes := overwrite_bytes host memory name
  have hfamily : saFamily host (memory.overwrite (name.bytes host)).bytes = name.endpoint.family := by
    rw [hbytes, saFamily_bytes]
  have hof : Endpoint.ofAddr host (memory.overwrite (name.bytes host)).bytes = name.endpoint := by
    rw [hbytes, ofAddr_bytes]
  have hknown := hfamily.symm ▸ name.endpoint_family
  refine ⟨_, Endpoint.toIpPort_eq_text hsize hknown, ?_⟩
  rw [Endpoint.ofText_text h (Endpoint.ofAddr_known hsize hknown), hof]

theorem store_hostToNetwork16 (port : UInt16) :
    host.store 2 (hostToNetwork16 host port).toNat = ByteOrder.big.store 2 port.toNat := by
  have hlt : ByteOrder.reorder .big host 2 port.toNat < 2 ^ 16 := ByteOrder.reorder_lt .big host 2 port.toNat
  rw [hostToNetwork16, UInt16.toNat_ofNat', Nat.mod_eq_of_lt hlt, ByteOrder.store_reorder]

theorem store_hostToNetwork32 (ip : UInt32) :
    host.store 4 (hostToNetwork32 host ip).toNat = ByteOrder.big.store 4 ip.toNat := by
  have hlt : ByteOrder.reorder .big host 4 ip.toNat < 2 ^ 32 := ByteOrder.reorder_lt .big host 4 ip.toNat
  rw [hostToNetwork32, UInt32.toNat_ofNat', Nat.mod_eq_of_lt hlt, ByteOrder.store_reorder]

theorem new_addr (memory : Sockaddr6) (port : UInt16) (loopbackOnly ipv6 : Bool) :
    InetAddress.new host memory port loopbackOnly ipv6 =
      ⟨memory.overwrite ((listening port loopbackOnly ipv6).bytes host)⟩ := by
  have hzero : host.store 4 0 = ByteOrder.big.store 4 0 := by cases host <;> rfl
  cases ipv6 with
  | true => simp [InetAddress.new, listening, bytes, SockaddrIn6.bytes, store_hostToNetwork16, hzero]
  | false =>
    cases loopbackOnly with
    | true =>
      have hip : ByteOrder.big.store 4 InetAddress.inaddrLoopback.toNat = [127, 0, 0, 1] := by decide
      simp [InetAddress.new, InetAddress.ofSockaddrIn, listening, bytes, SockaddrIn.bytes, store_hostToNetwork16,
        store_hostToNetwork32, hip]
    | false =>
      have hip : ByteOrder.big.store 4 InetAddress.inaddrAny.toNat = [0, 0, 0, 0] := by decide
      simp [InetAddress.new, InetAddress.ofSockaddrIn, listening, bytes, SockaddrIn.bytes, store_hostToNetwork16,
        store_hostToNetwork32, hip]

theorem bindOrDie_overwrite (memory : Sockaddr6) (name : Sockname) :
    bindOrDie host (memory.overwrite (name.bytes host)).bytes true = .ok (name.bytes host) := by
  have hne : afInet6 ≠ afInet := by decide
  rw [overwrite_bytes]
  cases name with
  | inet port ip =>
    have hfamily := saFamily_bytes host (.inet port ip) (memory.bytes.drop ((inet port ip).bytes host).length)
    simp only [endpoint] at hfamily
    simp only [bindOrDie, hfamily, if_true, field_zero (length_bytes_inet host port ip)]
    rfl
  | inet6 port flowinfo ip scopeId =>
    have hlength := length_bytes_inet6 host port flowinfo ip scopeId
    have hfamily := saFamily_bytes host (.inet6 port flowinfo ip scopeId)
      (memory.bytes.drop ((inet6 port flowinfo ip scopeId).bytes host).length)
    simp only [endpoint] at hfamily
    simp only [bindOrDie, hfamily, hne, if_true, if_false, field_zero hlength]
    rfl

theorem accept_name (fd : ℕ) (errno : Int32) (bs : List UInt8) (peerAddr : InetAddress) :
    Socket.accept (.connected fd) errno bs peerAddr = .ok ((fd : ℤ), ⟨Sockaddr6.zero.overwrite bs⟩) := by
  rw [Socket.accept, accept_connected, ok_bind]
  exact if_pos (Int.natCast_nonneg fd)

/-- Between the kernel and the text of an address nothing is lost, whatever the family of the address and the byte
order of the host. -/
theorem names_read_back (h : PresentsInet6 inetNtop6 inetPton6) (host : ByteOrder) :
    (∀ (name : Sockname) (fd : ℕ) (errno : Int32) (peerAddr : InetAddress), ∃ accepted text,
      Socket.accept (.connected fd) errno (name.bytes host) peerAddr = .ok ((fd : ℤ), accepted) ∧
        accepted.toIpPort host inetNtop6 = .ok text ∧ Endpoint.ofText inetPton6 text = some name.endpoint) ∧
    (∀ name : Sockname, ∃ localText peerText,
      (InetAddress.ofSockaddrIn6 (getLocalAddr (some (name.bytes host)))).toIpPort host inetNtop6 = .ok localText ∧
        Endpoint.ofText inetPton6 localText = some name.endpoint ∧
      (InetAddress.ofSockaddrIn6 (getPeerAddr (some (name.bytes host)))).toIpPort host inetNtop6 = .ok peerText ∧
        Endpoint.ofText inetPton6 peerText = some name.endpoint) ∧
    ∀ (memory : Sockaddr6) (port : UInt16) (loopbackOnly ipv6 : Bool), ∃ text,
      Socket.bindAddress host (InetAddress.new host memory port loopbackOnly ipv6) true =
        .ok ((listening port loopbackOnly ipv6).bytes host) ∧
      (InetAddress.new host memory port loopbackOnly ipv6).toIpPort host inetNtop6 = .ok text ∧
        Endpoint.ofText inetPton6 text = some (listening port loopbackOnly ipv6).endpoint := by
  refine ⟨?_, ?_, ?_⟩
  · intro name fd errno peerAddr
    obtain ⟨text, htext, hread⟩ := toIpPort_overwrite host h Sockaddr6.zero name
    exact ⟨_, text, accept_name fd errno _ peerAddr, htext, hread⟩
  · intro name
    obtain ⟨text, htext, hread⟩ := toIpPort_overwrite host h Sockaddr6.zero name
    exact ⟨text, text, htext, hread, htext, hread⟩
  · intro memory port loopbackOnly ipv6
    rw [new_addr]
    obtain ⟨text, htext, hread⟩ := toIpPort_overwrite host h memory (listening port loopbackOnly ipv6)
    exact ⟨text, bindOrDie_overwrite host memory _, htext, hread⟩

theorem names_read_back_full : ∃ accepted text,
    Socket.accept (.connected 9) 0 ((inet 8080 #v[192, 0, 2, 7]).bytes .little) ⟨Sockaddr6.zero⟩ = .ok (9, accepted) ∧
      accepted.toIpPort .little fullNtop6 = .ok text ∧
        Endpoint.ofText fullPton6 text = some ⟨2, [192, 0, 2, 7], 8080⟩ :=
  (names_read_back full_presents .little).1 (inet 8080 #v[192, 0, 2, 7]) 9 0 ⟨Sockaddr6.zero⟩

end Sockname

end Penduo

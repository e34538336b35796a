import Penduo.Library.ByteOrder
import Penduo.TcpServer

set_option autoImplicit false

namespace Penduo

def field (bytes : List UInt8) (offset width : ℕ) : List UInt8 := (bytes.drop offset).take width

namespace Sockets

def afInet : UInt16 := 2
def afInet6 : UInt16 := 10

def hostToNetwork16 (host : ByteOrder) (host16 : UInt16) : UInt16 :=
  UInt16.ofNat (ByteOrder.reorder .big host 2 host16.toNat)

def hostToNetwork32 (host : ByteOrder) (host32 : UInt32) : UInt32 :=
  UInt32.ofNat (ByteOrder.reorder .big host 4 host32.toNat)

def networkToHost16 (host : ByteOrder) (net16 : UInt16) : UInt16 :=
  UInt16.ofNat (ByteOrder.reorder host .big 2 net16.toNat)

def saFamily (host : ByteOrder) (addr : List UInt8) : UInt16 := UInt16.ofNat (host.load (field addr 0 2))

def sinPort (host : ByteOrder) (addr : List UInt8) : UInt16 := UInt16.ofNat (host.load (field addr 2 2))

def inetNtop4 (ip : List UInt8) : String := ".".intercalate (ip.map fun b => toString b.toNat)

def toIp (host : ByteOrder) (inetNtop6 : List UInt8 → String) (addr : List UInt8) : Except Fault String :=
  if saFamily host addr = afInet then pure (inetNtop4 (field addr 4 4))
  else if saFamily host addr = afInet6 then pure (inetNtop6 (field addr 8 16))
  else .error .fatal

def toIpPort (host : ByteOrder) (inetNtop6 : List UInt8 → String) (addr : List UInt8) : Except Fault String := do
  if saFamily host addr = afInet then
    let port := networkToHost16 host (sinPort host addr)
    let ip ← toIp host inetNtop6 addr
    pure ("[" ++ ip ++ "]:" ++ toString port.toNat)
  else if saFamily host addr = afInet6 then
    let port := networkToHost16 host (sinPort host addr)
    let ip ← toIp host inetNtop6 addr
    pure ("[" ++ ip ++ "]:" ++ toString port.toNat)
  else .error .fatal

def bindOrDie (host : ByteOrder) (addr : List UInt8) (succeeds : Bool) : Except Fault (List UInt8) :=
  if saFamily host addr = afInet then if succeeds then pure (field addr 0 16) else .error .fatal
  else if saFamily host addr = afInet6 then if succeeds then pure (field addr 0 28) else .error .fatal
  else .error .fatal

end Sockets

structure SockaddrIn where
  sinFamily : UInt16
  sinPort : UInt16
  sinAddr : UInt32
  sinZero : Vector UInt8 8

structure SockaddrIn6 where
  sin6Family : UInt16
  sin6Port : UInt16
  sin6Flowinfo : UInt32
  sin6Addr : Vector UInt8 16
  sin6ScopeId : UInt32

def SockaddrIn.bytes (host : ByteOrder) (addr : SockaddrIn) : List UInt8 :=
  host.store 2 addr.sinFamily.toNat ++ (host.store 2 addr.sinPort.toNat ++
    (host.store 4 addr.sinAddr.toNat ++ addr.sinZero.toList))

def SockaddrIn6.bytes (host : ByteOrder) (addr : SockaddrIn6) : List UInt8 :=
  host.store 2 addr.sin6Family.toNat ++ (host.store 2 addr.sin6Port.toNat ++
    (host.store 4 addr.sin6Flowinfo.toNat ++ (addr.sin6Addr.toList ++ host.store 4 addr.sin6ScopeId.toNat)))

structure Sockaddr6 where
  bytes : List UInt8
  size : bytes.length = 28

namespace Sockaddr6

def zero : Sockaddr6 := ⟨List.replicate 28 0, List.length_replicate⟩

def overwrite (memory : Sockaddr6) (bytes : List UInt8) : Sockaddr6 :=
  ⟨bytes.take 28 ++ memory.bytes.drop (bytes.take 28).length, by
    rw [List.length_append, List.length_drop, memory.size, List.length_take]
    omega⟩

end Sockaddr6

structure InetAddress where
  addr : Sockaddr6

namespace InetAddress

def inaddrAny : UInt32 := 0
def inaddrLoopback : UInt32 := 0x7f000001
def in6addrAny : Vector UInt8 16 := #v[0, 0, 0, 0, 0, 0, 0, 0, 0, 0, 0, 0, 0, 0, 0, 0]
def in6addrLoopback : Vector UInt8 16 := #v[0, 0, 0, 0, 0, 0, 0, 0, 0, 0, 0, 0, 0, 0, 0, 1]

-- `memory` is what the union held before, of which `sockaddr_in` leaves the end.
def ofSockaddrIn (host : ByteOrder) (memory : Sockaddr6) (addr : SockaddrIn) : InetAddress :=
  ⟨memory.overwrite (addr.bytes host)⟩

def ofSockaddrIn6 (addr6 : Sockaddr6) : InetAddress := ⟨addr6⟩

def new (host : ByteOrder) (memory : Sockaddr6) (port : UInt16) (loopbackOnly ipv6 : Bool) : InetAddress :=
  if ipv6 then
    let ip := if loopbackOnly then in6addrLoopback else in6addrAny
    let addr6 : SockaddrIn6 :=
      { sin6Family := Sockets.afInet6, sin6Port := Sockets.hostToNetwork16 host port, sin6Flowinfo := 0,
        sin6Addr := ip, sin6ScopeId := 0 }
    ⟨memory.overwrite (addr6.bytes host)⟩
  else
    let ip := if loopbackOnly then inaddrLoopback else inaddrAny
    let addr : SockaddrIn :=
      { sinFamily := Sockets.afInet, sinPort := Sockets.hostToNetwork16 host port,
        sinAddr := Sockets.hostToNetwork32 host ip, sinZero := Vector.replicate 8 0 }
    ofSockaddrIn host memory addr

def family (host : ByteOrder) (a : InetAddress) : UInt16 := Sockets.saFamily host a.addr.bytes

def setSocketAddrInet6 (_ : InetAddress) (addr6 : Sockaddr6) : InetAddress := ⟨addr6⟩

def toIp (host : ByteOrder) (inetNtop6 : List UInt8 → String) (a : InetAddress) : Except Fault String :=
  Sockets.toIp host inetNtop6 a.addr.bytes

def toIpPort (host : ByteOrder) (inetNtop6 : List UInt8 → String) (a : InetAddress) : Except Fault String :=
  Sockets.toIpPort host inetNtop6 a.addr.bytes

end InetAddress

namespace Sockets

def getAddr (name : Option (List UInt8)) : Sockaddr6 :=
  match name with
  | some bytes => Sockaddr6.zero.overwrite bytes
  | none => Sockaddr6.zero

def getLocalAddr (getsockname : Option (List UInt8)) : Sockaddr6 := getAddr getsockname

def getPeerAddr (getpeername : Option (List UInt8)) : Sockaddr6 := getAddr getpeername

end Sockets

namespace Socket

def bindAddress (host : ByteOrder) (localAddr : InetAddress) (succeeds : Bool) : Except Fault (List UInt8) :=
  Sockets.bindOrDie host localAddr.addr.bytes succeeds

def accept (r : Accepted) (errno : Int32) (name : List UInt8) (peerAddr : InetAddress) :
    Except Fault (ℤ × InetAddress) := do
  let (connectFd, _) ← Sockets.accept r errno
  if 0 ≤ connectFd then pure (connectFd, peerAddr.setSocketAddrInet6 (Sockaddr6.zero.overwrite name))
  else pure (connectFd, peerAddr)

end Socket

end Penduo

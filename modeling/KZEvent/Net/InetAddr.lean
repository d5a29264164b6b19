import KZEvent.Foundation.ByteOrder
import Mathlib.Data.List.DropRight

/-!
# Network addresses

An `InetAddr` is a zeroed `sockaddr_storage` into which one of the factories has
written the members of a `sockaddr_in`, `sockaddr_in6` or `sockaddr_un`, and the
length of what is in use.  Members are read back at their offsets, on a machine
that stores the low byte of an integer first.  `inet_pton`, `inet_ntop` and
`std::hash` are parameters.
-/

namespace KZEvent
namespace Net

open Foundation

/-! ## The structures of the C library -/

def AF_UNIX : UInt16 := 1
def AF_INET : UInt16 := 2
def AF_INET6 : UInt16 := 10

/-- `sizeof(sockaddr_in)`. -/
def sockaddrInSize : Nat := 16

/-- `sizeof(sockaddr_in6)`. -/
def sockaddrIn6Size : Nat := 28

/-- `sizeof(sockaddr_un)`. -/
def sockaddrUnSize : Nat := 110

/-- `offsetof(sockaddr_un, sun_path)`. -/
def sunPathOffset : Nat := 2

/-- `sizeof(sockaddr_un::sun_path)`. -/
def sunPathSize : Nat := 108

/-- `sizeof(sockaddr_storage)`. -/
def sockaddrStorageSize : Nat := 128

/-- An address as it is handed over the C interface: the memory a pointer
points to, and a length within it. -/
structure Sockaddr where
  bytes : List UInt8
  len : Nat
  len_le : len ≤ bytes.length

namespace Sockaddr

variable (addr : Sockaddr)

def family : UInt16 := load16 addr.bytes 0

/-- `sin_port` and `sin6_port`, in network byte order. -/
def sinPort : UInt16 := load16 addr.bytes 2
def sinAddr : UInt32 := load32 addr.bytes 4
def sin6Addr : List UInt8 := window addr.bytes 8 24
def sin6ScopeId : UInt32 := load32 addr.bytes 24

/-- The bytes of `sun_path` within the length. -/
def sunPath : List UInt8 := window addr.bytes sunPathOffset addr.len

end Sockaddr

/-- The bytes of a `sockaddr_storage`. -/
structure SockaddrStorage where
  bytes : List UInt8
  length_eq : bytes.length = sockaddrStorageSize

/-- A zeroed `sockaddr_storage` with `bytes` written to its front. -/
def SockaddrStorage.ofBytes (bytes : List UInt8) : SockaddrStorage :=
  ⟨resize 0 bytes sockaddrStorageSize, length_resize _ _ _⟩

/-- `InetAddr`: `addr_storage_`, and a `socklen_` within it. -/
structure InetAddr where
  storage : SockaddrStorage
  socklen : Nat
  socklen_le : socklen ≤ sockaddrStorageSize

/-- An address of the C library that fits into an `in_addr`. -/
abbrev InAddr := { bytes : List UInt8 // bytes.length = 4 }

/-- An address of the C library that fits into an `in6_addr`. -/
abbrev In6Addr := { bytes : List UInt8 // bytes.length = 16 }

/-- `inet_pton` and `inet_ntop` for the two families; `none` where they fail. -/
structure InetText where
  pton4 : List UInt8 → Option InAddr
  pton6 : List UInt8 → Option In6Addr
  ntop4 : List UInt8 → Option (List UInt8)
  ntop6 : List UInt8 → Option (List UInt8)

/-- `std::hash` of the types an address is made of. -/
structure StdHash where
  uint16 : UInt16 → UInt64
  uint32 : UInt32 → UInt64
  bytes : List UInt8 → UInt64

/-- The characters of a string up to the first NUL. -/
def cStr (chars : List UInt8) : List UInt8 := chars.takeWhile (· ≠ 0)

namespace InetAddr

/-- `get_sockaddr` and `get_socklen`. -/
def sockaddr (a : InetAddr) : Sockaddr where
  bytes := a.storage.bytes
  len := a.socklen
  len_le := by rw [a.storage.length_eq]; exact a.socklen_le

/-! ## Comparison and hash -/

/-- `operator==`. -/
def eq (a b : InetAddr) : Bool :=
  if a.sockaddr.family ≠ b.sockaddr.family then false
  else if a.sockaddr.family = AF_INET then
    a.sockaddr.sinPort == b.sockaddr.sinPort &&
      a.sockaddr.sinAddr == b.sockaddr.sinAddr
  else if a.sockaddr.family = AF_INET6 then
    a.sockaddr.sinPort == b.sockaddr.sinPort &&
      a.sockaddr.sin6Addr == b.sockaddr.sin6Addr
  else if a.sockaddr.family = AF_UNIX then
    if a.socklen ≠ b.socklen then false
    else if a.socklen ≤ sunPathOffset then false
    else a.sockaddr.sunPath == b.sockaddr.sunPath
  else false

/-- `operator!=`. -/
def ne (a b : InetAddr) : Bool := !a.eq b

/-- `hash_combine`. -/
def hashCombine (seed v : UInt64) : UInt64 :=
  seed ^^^ (v + 0x9e3779b9 + (seed <<< (6 : UInt64)) + (seed >>> (2 : UInt64)))

/-- `InetAddr::hash`. -/
def hash (std : StdHash) (a : InetAddr) : UInt64 :=
  let seed := hashCombine 0 (std.uint16 a.sockaddr.family)
  if a.sockaddr.family = AF_INET then
    hashCombine (hashCombine seed (std.uint32 a.sockaddr.sinAddr))
      (std.uint16 a.sockaddr.sinPort)
  else if a.sockaddr.family = AF_INET6 then
    hashCombine (hashCombine seed (std.bytes a.sockaddr.sin6Addr))
      (std.uint16 a.sockaddr.sinPort)
  else if a.sockaddr.family = AF_UNIX then
    if sunPathOffset < a.socklen then
      hashCombine seed (std.bytes a.sockaddr.sunPath)
    else seed
  else 0

/-! ## The factories -/

/-- A zeroed storage with the members written, of which `len` bytes count. -/
def ofMembers (members : List UInt8) (len : Nat)
    (hLen : len ≤ sockaddrStorageSize) : InetAddr :=
  ⟨.ofBytes members, len, hLen⟩

def makeIpv4 (text : InetText) (ip : List UInt8) (port : UInt16) :
    Option InetAddr :=
  (text.pton4 (cStr ip)).map fun addr =>
    ofMembers (bytes16 AF_INET ++ bytes16 (htons port) ++ addr.val)
      sockaddrInSize (by decide)

def makeIpv6 (text : InetText) (ip : List UInt8) (port : UInt16)
    (scopeId : UInt32) : Option InetAddr :=
  (text.pton6 (cStr ip)).map fun addr =>
    -- `sin6_flowinfo` stays zero.
    ofMembers (bytes16 AF_INET6 ++ bytes16 (htons port) ++ [0, 0, 0, 0] ++
      addr.val ++ bytes32 scopeId) sockaddrIn6Size (by decide)

theorem unix_len_le {size : Nat} (hSize : ¬ sunPathSize < size + 1) :
    sunPathOffset + size + 1 ≤ sockaddrStorageSize := by
  simp only [sunPathSize, sunPathOffset, sockaddrStorageSize] at hSize ⊢
  omega

/-- What both factories of Unix addresses do: the checks of the name, and the
storage with `sun_path`, of which one byte is not of the name. -/
def makeSun (name sunPath : List UInt8) : Option InetAddr :=
  if name.contains 0 then none
  else if name.isEmpty then none
  else if hSize : sunPathSize < name.length + 1 then none
  else
    some (ofMembers (bytes16 AF_UNIX ++ sunPath)
      (sunPathOffset + name.length + 1) (unix_len_le hSize))

/-- A path is a C string: its terminator counts. -/
def makeUnix (path : List UInt8) : Option InetAddr :=
  makeSun path (path ++ [0])

/-- An abstract name has a leading NUL and no terminator. -/
def makeAbstract (name : List UInt8) : Option InetAddr :=
  makeSun name (0 :: name)

/-- `while (!name.empty() && name.back() == '\0') name.pop_back();` -/
def popBackNul (chars : List UInt8) : List UInt8 := chars.rdropWhile (· == 0)

def makeFromSockaddr : Option Sockaddr → Option InetAddr
  | none => none
  | some addr =>
      if addr.family = AF_INET then
        if addr.len < sockaddrInSize then none
        else
          some (ofMembers (addr.bytes.take sockaddrInSize) sockaddrInSize
            (by decide))
      else if addr.family = AF_INET6 then
        if addr.len < sockaddrIn6Size then none
        else
          some (ofMembers (addr.bytes.take sockaddrIn6Size) sockaddrIn6Size
            (by decide))
      else if addr.family = AF_UNIX then
        if addr.len ≤ sunPathOffset ∨ sockaddrUnSize < addr.len then none
        else if addr.sunPath.head? = some 0 then
          makeAbstract (popBackNul (addr.sunPath.drop 1))
        else
          makeUnix (popBackNul addr.sunPath)
      else none

/-! ## What an address tells -/

def getIpOrPath (text : InetText) (a : InetAddr) : List UInt8 :=
  if a.sockaddr.family = AF_INET then
    (text.ntop4 (window a.sockaddr.bytes 4 8)).getD []
  else if a.sockaddr.family = AF_INET6 then
    (text.ntop6 a.sockaddr.sin6Addr).getD []
  else if a.sockaddr.family = AF_UNIX then
    if a.socklen ≤ sunPathOffset then []
    else if a.sockaddr.sunPath.head? = some 0 then
      -- An abstract name is shown behind an `@`.
      0x40 :: a.sockaddr.sunPath.drop 1
    else cStr (a.sockaddr.bytes.drop sunPathOffset)
  else []

def getPort (a : InetAddr) : UInt16 :=
  if a.sockaddr.family = AF_INET ∨ a.sockaddr.family = AF_INET6 then
    htons a.sockaddr.sinPort
  else 0

/-! ## What is compared

Two addresses are equal if and only if they have the same identity; an address
without one, which no factory makes, is not even equal to itself. -/

/-- The members `operator==` and `hash` look at. -/
inductive Ident
  | inet (port : UInt16) (addr : UInt32)
  | inet6 (port : UInt16) (addr : List UInt8)
  | unix (socklen : Nat) (path : List UInt8)

def ident (a : InetAddr) : Option Ident :=
  if a.sockaddr.family = AF_INET then
    some (.inet a.sockaddr.sinPort a.sockaddr.sinAddr)
  else if a.sockaddr.family = AF_INET6 then
    some (.inet6 a.sockaddr.sinPort a.sockaddr.sin6Addr)
  else if a.sockaddr.family = AF_UNIX ∧ sunPathOffset < a.socklen then
    some (.unix a.socklen a.sockaddr.sunPath)
  else none

variable {a b : InetAddr}

theorem ident_inet (hFamily : a.sockaddr.family = AF_INET) :
    a.ident = some (.inet a.sockaddr.sinPort a.sockaddr.sinAddr) := by
  rw [ident, if_pos hFamily]

theorem ident_inet6 (hFamily : a.sockaddr.family = AF_INET6) :
    a.ident = some (.inet6 a.sockaddr.sinPort a.sockaddr.sin6Addr) := by
  have hOther : ¬ AF_INET6 = AF_INET := by decide
  simp only [ident, hFamily, if_neg hOther, if_true]

theorem ident_unix (hFamily : a.sockaddr.family = AF_UNIX)
    (hLen : sunPathOffset < a.socklen) :
    a.ident = some (.unix a.socklen a.sockaddr.sunPath) := by
  have hNotInet : ¬ AF_UNIX = AF_INET := by decide
  have hNotInet6 : ¬ AF_UNIX = AF_INET6 := by decide
  simp only [ident, hFamily, if_neg hNotInet, if_neg hNotInet6, true_and,
    if_pos hLen]

/-- The families an identity belongs to. -/
theorem ident_cases {i : Ident} (hIdent : a.ident = some i) :
    (a.sockaddr.family = AF_INET ∧
      i = .inet a.sockaddr.sinPort a.sockaddr.sinAddr) ∨
    (a.sockaddr.family = AF_INET6 ∧
      i = .inet6 a.sockaddr.sinPort a.sockaddr.sin6Addr) ∨
    (a.sockaddr.family = AF_UNIX ∧ sunPathOffset < a.socklen ∧
      i = .unix a.socklen a.sockaddr.sunPath) := by
  simp only [ident] at hIdent
  split_ifs at hIdent with hInet hInet6 hUnix
  · exact .inl ⟨hInet, (Option.some.inj hIdent).symm⟩
  · exact .inr (.inl ⟨hInet6, (Option.some.inj hIdent).symm⟩)
  · exact .inr (.inr ⟨hUnix.1, hUnix.2, (Option.some.inj hIdent).symm⟩)

theorem eq_iff : a.eq b = true ↔ ∃ i, a.ident = some i ∧ b.ident = some i := by
  constructor
  · intro hEq
    simp only [eq] at hEq
    split_ifs at hEq with hFamily hInet hInet6 hUnix hLen hShort
    · rw [not_not] at hFamily
      have hMembers : a.sockaddr.sinPort = b.sockaddr.sinPort ∧
          a.sockaddr.sinAddr = b.sockaddr.sinAddr := by simpa using hEq
      exact ⟨_, ident_inet hInet, by
        rw [ident_inet (hFamily ▸ hInet), hMembers.1, hMembers.2]⟩
    · rw [not_not] at hFamily
      have hMembers : a.sockaddr.sinPort = b.sockaddr.sinPort ∧
          a.sockaddr.sin6Addr = b.sockaddr.sin6Addr := by simpa using hEq
      exact ⟨_, ident_inet6 hInet6, by
        rw [ident_inet6 (hFamily ▸ hInet6), hMembers.1, hMembers.2]⟩
    · rw [not_not] at hFamily hLen
      have hPath : a.sockaddr.sunPath = b.sockaddr.sunPath := by simpa using hEq
      have hLong : sunPathOffset < a.socklen := Nat.not_le.mp hShort
      exact ⟨_, ident_unix hUnix hLong, by
        rw [ident_unix (hFamily ▸ hUnix) (hLen ▸ hLong), hPath, hLen]⟩
  · rintro ⟨i, hLeft, hRight⟩
    have hNotInet : ¬ AF_UNIX = AF_INET := by decide
    have hNotInet6 : ¬ AF_UNIX = AF_INET6 := by decide
    have hOther : ¬ AF_INET6 = AF_INET := by decide
    rcases ident_cases hLeft with ⟨hFamily, rfl⟩ | ⟨hFamily, rfl⟩ |
        ⟨hFamily, hLong, rfl⟩ <;>
      rcases ident_cases hRight with ⟨hFamily', hSame⟩ | ⟨hFamily', hSame⟩ |
        ⟨hFamily', hLong', hSame⟩ <;>
      simp only [reduceCtorEq, Ident.inet.injEq, Ident.inet6.injEq,
        Ident.unix.injEq] at hSame
    · simp [eq, hFamily, hFamily', hSame]
    · simp [eq, hFamily, hFamily', hSame, hOther]
    · simp [eq, hFamily, hFamily', hSame, hNotInet, hNotInet6,
        hLong']

end InetAddr
end Net
end KZEvent

import KZEvent.Net.AddrCodec

/-!
# The address a `sockaddr` denotes

What the kernel tells peers apart by, and what `make_from_sockaddr` keeps of it.
The decoder drops the trailing NULs of an abstract name, which are part of the
name for the kernel; everything else it keeps.  What it keeps is more than
`operator==` looks at: the scope id of an IPv6 address is not compared.
-/

namespace KZEvent
namespace Net

open Foundation

/-! ## The address a `sockaddr` denotes -/

/-- What the kernel tells peers apart by.  The scope id counts for link-local
addresses only. -/
inductive KernelAddr
  | ipv4 (addr : UInt32) (port : UInt16)
  | ipv6 (addr : List UInt8) (port : UInt16) (scopeId : Option UInt32)
  | pathname (path : List UInt8)
  | abstract (name : List UInt8)
deriving DecidableEq

namespace Sockaddr

/-- `fe80::/10`. -/
def linkLocal (addr : Sockaddr) : Bool :=
  addr.sin6Addr.getD 0 0 == 0xfe && addr.sin6Addr.getD 1 0 &&& 0xc0 == 0x80

/-- The address the kernel sees in a `sockaddr`; `none` if it is unnamed, too
short or of another family. -/
def kernelAddr (addr : Sockaddr) : Option KernelAddr :=
  if addr.family = AF_INET then
    if addr.len < sockaddrInSize then none
    else some (.ipv4 addr.sinAddr addr.sinPort)
  else if addr.family = AF_INET6 then
    if addr.len < sockaddrIn6Size then none
    else
      some (.ipv6 addr.sin6Addr addr.sinPort
        (if addr.linkLocal then some addr.sin6ScopeId else none))
  else if addr.family = AF_UNIX then
    if addr.len ≤ sunPathOffset then none
    else if addr.sunPath.head? = some 0 then
      -- The whole rest is the name, NULs included.
      some (.abstract (addr.sunPath.drop 1))
    else some (.pathname (cStr addr.sunPath))
  else none

end Sockaddr

namespace KernelAddr

/-- An abstract name without its trailing NULs. -/
def trimmed : KernelAddr → KernelAddr
  | abstract name => abstract (InetAddr.popBackNul name)
  | addr => addr

/-- An IPv6 address without its scope id. -/
def anyScope : KernelAddr → KernelAddr
  | ipv6 addr port _ => ipv6 addr port none
  | addr => addr

end KernelAddr

namespace Sockaddr

variable {addr : Sockaddr}

theorem kernelAddr_inet (hFamily : addr.family = AF_INET)
    (hLen : sockaddrInSize ≤ addr.len) :
    addr.kernelAddr = some (.ipv4 addr.sinAddr addr.sinPort) := by
  rw [kernelAddr, if_pos hFamily, if_neg (Nat.not_lt.mpr hLen)]

theorem kernelAddr_inet6 (hFamily : addr.family = AF_INET6)
    (hLen : sockaddrIn6Size ≤ addr.len) :
    addr.kernelAddr = some (.ipv6 addr.sin6Addr addr.sinPort
      (if addr.linkLocal then some addr.sin6ScopeId else none)) := by
  have hOther : ¬ AF_INET6 = AF_INET := by decide
  simp only [kernelAddr, hFamily, if_neg hOther, if_true,
    if_neg (Nat.not_lt.mpr hLen)]

theorem kernelAddr_unix (hFamily : addr.family = AF_UNIX)
    (hLen : ¬ addr.len ≤ sunPathOffset) :
    addr.kernelAddr =
      if addr.sunPath.head? = some 0 then some (.abstract (addr.sunPath.drop 1))
      else some (.pathname (cStr addr.sunPath)) := by
  have hNotInet : ¬ AF_UNIX = AF_INET := by decide
  have hNotInet6 : ¬ AF_UNIX = AF_INET6 := by decide
  simp only [kernelAddr, hFamily, if_neg hNotInet, if_neg hNotInet6, if_true,
    if_neg hLen]

end Sockaddr

namespace InetAddr

/-! ## What decoding keeps -/

/-- Up to the first NUL there is what is left without the trailing ones. -/
theorem cStr_eq_popBackNul {chars : List UInt8} (hNul : 0 ∉ popBackNul chars) :
    cStr chars = popBackNul chars := by
  have hSplit : popBackNul chars ++ chars.rtakeWhile (· == 0) = chars :=
    List.rdropWhile_append_rtakeWhile
  have hTail : (chars.rtakeWhile (· == 0)).takeWhile (· ≠ 0) = [] := by
    rw [List.takeWhile_eq_nil_iff]
    intro hPos
    have hMem := List.getElem_mem hPos
    simpa using List.mem_rtakeWhile_imp hMem
  have hFront : ∀ char ∈ popBackNul chars, decide (char ≠ 0) = true := by
    intro char hMem
    simpa using fun hZero : char = 0 => hNul (hZero ▸ hMem)
  rw [cStr, ← hSplit, List.takeWhile_append_of_pos hFront, hTail, List.append_nil,
    hSplit]

/-- Decoding keeps the address but for the trailing NULs of an abstract name. -/
theorem Decoded.kernelAddr {addr : Sockaddr} {a : InetAddr}
    (hDecoded : Decoded addr a) :
    ∃ kernelAddr, addr.kernelAddr = some kernelAddr ∧
      a.sockaddr.kernelAddr = some kernelAddr.trimmed := by
  cases hDecoded with
  | ipv4 hFamily hLen =>
      refine ⟨_, Sockaddr.kernelAddr_inet hFamily hLen, ?_⟩
      rw [Sockaddr.kernelAddr_inet
        ((family_copy _ hLen (by decide)).trans hFamily) (Nat.le_refl _),
        sinAddr_copy _ hLen (by decide), sinPort_copy _ hLen (by decide)]
      rfl
  | ipv6 hFamily hLen =>
      refine ⟨_, Sockaddr.kernelAddr_inet6 hFamily hLen, ?_⟩
      rw [Sockaddr.kernelAddr_inet6
        ((family_copy _ hLen (by decide)).trans hFamily) (Nat.le_refl _),
        Sockaddr.linkLocal, sin6Addr_copy _ hLen (by decide),
        sinPort_copy _ hLen (by decide), sin6ScopeId_copy _ hLen (by decide)]
      rfl
  | abstract hFamily hLen hFirst hValid =>
      refine ⟨.abstract (addr.sunPath.drop 1), ?_, ?_⟩
      · rw [Sockaddr.kernelAddr_unix hFamily hLen, if_pos hFirst]
      · rw [Sockaddr.kernelAddr_unix (family_sunAddr hValid rfl)
          (sunAddr_len hValid _), sunPath_sunAddr hValid rfl, List.head?_cons,
          if_pos rfl]
        rfl
  | path hFamily hLen hFirst hValid =>
      have hPath := cStr_eq_popBackNul hValid.noNul
      refine ⟨.pathname (popBackNul addr.sunPath), ?_, ?_⟩
      · rw [Sockaddr.kernelAddr_unix hFamily hLen, if_neg hFirst, hPath]
      · have hTerminated := popBackNul_terminated hValid.noNul
        have hFirstChar := head?_terminated_ne hValid
        have hLength := length_terminated (popBackNul addr.sunPath)
        rw [Sockaddr.kernelAddr_unix (family_sunAddr hValid hLength)
          (sunAddr_len hValid _), sunPath_sunAddr hValid hLength,
          if_neg hFirstChar, cStr_eq_popBackNul (by
            rw [hTerminated]
            exact hValid.noNul), hTerminated]
        rfl

/-! ## What equal addresses denote -/

/-- What the compared members say about the kernel address. -/
def Ident.kernelAddr : Ident → KernelAddr
  | inet port addr => .ipv4 addr port
  | inet6 port addr => .ipv6 addr port none
  | unix _ path =>
      if path.head? = some 0 then .abstract (path.drop 1)
      else .pathname (cStr path)

/-- The compared members fix the kernel address up to the scope id. -/
theorem anyScope_of_ident {a : InetAddr} {i : Ident} {kernelAddr : KernelAddr}
    (hIdent : a.ident = some i)
    (hKernel : a.sockaddr.kernelAddr = some kernelAddr) :
    kernelAddr.anyScope = i.kernelAddr := by
  rcases ident_cases hIdent with ⟨hFamily, rfl⟩ | ⟨hFamily, rfl⟩ |
    ⟨hFamily, hLong, rfl⟩
  · have hLen : ¬ a.sockaddr.len < sockaddrInSize := by
      intro hShort
      rw [Sockaddr.kernelAddr, if_pos hFamily, if_pos hShort] at hKernel
      cases hKernel
    rw [Sockaddr.kernelAddr_inet hFamily (Nat.not_lt.mp hLen)] at hKernel
    obtain rfl := Option.some.inj hKernel
    rfl
  · have hOther : ¬ AF_INET6 = AF_INET := by decide
    have hLen : ¬ a.sockaddr.len < sockaddrIn6Size := by
      intro hShort
      simp only [Sockaddr.kernelAddr, hFamily, if_neg hOther, if_true,
        if_pos hShort, reduceCtorEq] at hKernel
    rw [Sockaddr.kernelAddr_inet6 hFamily (Nat.not_lt.mp hLen)] at hKernel
    obtain rfl := Option.some.inj hKernel
    rfl
  · rw [Sockaddr.kernelAddr_unix hFamily (Nat.not_le.mpr hLong)] at hKernel
    simp only [Ident.kernelAddr]
    split_ifs at hKernel ⊢ with hFirst
    · obtain rfl := Option.some.inj hKernel
      rfl
    · obtain rfl := Option.some.inj hKernel
      rfl

/-- Two decoded addresses that are equal denote the same but for what
`operator==` ignores. -/
theorem anyScope_of_eq {left right : Sockaddr} {a b : InetAddr}
    (hLeft : makeFromSockaddr (some left) = some a)
    (hRight : makeFromSockaddr (some right) = some b) (hEq : a.eq b = true) :
    ∃ leftAddr rightAddr, left.kernelAddr = some leftAddr ∧
      a.sockaddr.kernelAddr = some leftAddr.trimmed ∧
      right.kernelAddr = some rightAddr ∧
      leftAddr.trimmed.anyScope = rightAddr.trimmed.anyScope := by
  obtain ⟨leftAddr, hLeftAddr, hLeftKept⟩ := (decoded hLeft).kernelAddr
  obtain ⟨rightAddr, hRightAddr, hRightKept⟩ := (decoded hRight).kernelAddr
  obtain ⟨i, hLeftIdent, hRightIdent⟩ := eq_iff.mp hEq
  refine ⟨leftAddr, rightAddr, hLeftAddr, hLeftKept, hRightAddr, ?_⟩
  rw [anyScope_of_ident hLeftIdent hLeftKept,
    anyScope_of_ident hRightIdent hRightKept]

/-- **What decoding keeps of the denoted address.**  A decoded address denotes
what its input denotes, without the trailing NULs of an abstract name.  So two
accepted inputs with equal decoded addresses denote the same up to such NULs,
the scope id of an IPv6 address aside. -/
theorem decoding_keeps_address :
    (∀ addr a, makeFromSockaddr (some addr) = some a →
      ∃ kernelAddr, addr.kernelAddr = some kernelAddr ∧
        a.sockaddr.kernelAddr = some kernelAddr.trimmed) ∧
    ∀ left right a b, makeFromSockaddr (some left) = some a →
      makeFromSockaddr (some right) = some b → a.eq b = true →
      ∃ leftAddr rightAddr, left.kernelAddr = some leftAddr ∧
        right.kernelAddr = some rightAddr ∧
        leftAddr.trimmed.anyScope = rightAddr.trimmed.anyScope := by
  refine ⟨fun addr a hDecoded => (decoded hDecoded).kernelAddr, ?_⟩
  intro left right a b hLeft hRight hEq
  obtain ⟨leftAddr, rightAddr, hLeftAddr, -, hRightAddr, hSame⟩ :=
    anyScope_of_eq hLeft hRight hEq
  exact ⟨leftAddr, rightAddr, hLeftAddr, hRightAddr, hSame⟩

/-- The abstract name `a` with `padding` NULs behind it. -/
def paddedName (padding : Nat) : Sockaddr where
  bytes := bytes16 AF_UNIX ++ [0, 0x61] ++ List.replicate padding 0
  len := 4 + padding
  len_le := by
    simp only [List.length_append, length_bytes16, List.length_replicate,
      List.length_cons, List.length_nil]
    omega

/-- A padded abstract name is another name for the kernel, and is decoded to an
equal address. -/
theorem decoding_keeps_address_padded :
    ∃ a b leftAddr rightAddr,
      makeFromSockaddr (some (paddedName 0)) = some a ∧
      makeFromSockaddr (some (paddedName 1)) = some b ∧ a.eq b = true ∧
      (paddedName 0).kernelAddr = some leftAddr ∧
      (paddedName 1).kernelAddr = some rightAddr ∧ leftAddr ≠ rightAddr ∧
      b.sockaddr.kernelAddr = some rightAddr.trimmed ∧
      leftAddr.trimmed.anyScope = rightAddr.trimmed.anyScope := by
  obtain ⟨a, hLeft⟩ : ∃ a, makeFromSockaddr (some (paddedName 0)) = some a :=
    Option.isSome_iff_exists.mp (by decide +kernel)
  obtain ⟨b, hRight⟩ : ∃ b, makeFromSockaddr (some (paddedName 1)) = some b :=
    Option.isSome_iff_exists.mp (by decide +kernel)
  have hBoth : ((makeFromSockaddr (some (paddedName 0))).bind fun a =>
      (makeFromSockaddr (some (paddedName 1))).map fun b => a.eq b) =
        some true := by
    decide +kernel
  have hEq : a.eq b = true := by simpa [hLeft, hRight] using hBoth
  obtain ⟨leftAddr, rightAddr, hLeftAddr, hRightAddr, hSame⟩ :=
    decoding_keeps_address.2 (paddedName 0) (paddedName 1) a b hLeft hRight hEq
  have hDiffer : (paddedName 0).kernelAddr ≠ (paddedName 1).kernelAddr := by
    decide +kernel
  obtain ⟨keptAddr, hKeptAddr, hKept⟩ :=
    decoding_keeps_address.1 (paddedName 1) b hRight
  obtain rfl : keptAddr = rightAddr :=
    Option.some.inj (hKeptAddr.symm.trans hRightAddr)
  rw [hLeftAddr, hRightAddr] at hDiffer
  exact ⟨a, b, leftAddr, keptAddr, hLeft, hRight, hEq, hLeftAddr, hRightAddr,
    fun hNames => hDiffer (congrArg some hNames), hKept, hSame⟩

/-- Decoding does not always keep the denoted address. -/
theorem decoding_loses_padding :
    ¬ ∀ addr a, makeFromSockaddr (some addr) = some a →
      a.sockaddr.kernelAddr = addr.kernelAddr := by
  intro hClaim
  obtain ⟨a, hDecoded⟩ : ∃ a, makeFromSockaddr (some (paddedName 1)) = some a :=
    Option.isSome_iff_exists.mp (by decide +kernel)
  have hOther : ((makeFromSockaddr (some (paddedName 1))).map fun a =>
      decide (a.sockaddr.kernelAddr = (paddedName 1).kernelAddr)) =
        some false := by
    decide +kernel
  rw [hDecoded, Option.map_some, hClaim _ a hDecoded] at hOther
  simp at hOther

end InetAddr
end Net
end KZEvent

import KZEvent.Net.InetAddr

/-!
# Encoding and decoding addresses

Every address of the four factories is decoded by `make_from_sockaddr` to
itself: the members are read at the offsets they were written to, a path has one
trailing NUL too many and an abstract name none, and the lengths of both lie in
the range the decoder accepts.
-/

namespace KZEvent
namespace Net

open Foundation

namespace InetAddr

/-! ## Members of an encoded address -/

/-- What lies between the front and the back is read at the end of the front. -/
theorem window_between (front bytes back : List UInt8) :
    window (front ++ (bytes ++ back)) front.length
      (front.length + bytes.length) = bytes := by
  have hBack := window_append_back front (bytes ++ back) 0 bytes.length
  rw [Nat.add_zero] at hBack
  rw [hBack, window_append_front]

theorem load16_append_bytes16 (front : List UInt8) (value : UInt16)
    (back : List UInt8) :
    load16 (front ++ (bytes16 value ++ back)) front.length = value := by
  have hWindow := window_between front (bytes16 value) back
  rw [length_bytes16] at hWindow
  rw [load16, hWindow, leValue_bytes16, UInt16.ofNat_toNat]

theorem load32_append_bytes32 (front : List UInt8) (value : UInt32)
    (back : List UInt8) :
    load32 (front ++ (bytes32 value ++ back)) front.length = value := by
  have hWindow := window_between front (bytes32 value) back
  rw [length_bytes32] at hWindow
  rw [load32, hWindow, leValue_bytes32, UInt32.ofNat_toNat]

/-- The storage keeps what lies within the members. -/
theorem window_ofMembers {members : List UInt8} {len first last : Nat}
    (hLen : len ≤ sockaddrStorageSize) (hLast : last ≤ members.length)
    (hFits : members.length ≤ sockaddrStorageSize) :
    window (ofMembers members len hLen).sockaddr.bytes first last =
      window members first last :=
  window_resize hLast (Nat.le_trans hLast hFits)

theorem family_ofMembers (family : UInt16) (rest : List UInt8) {len : Nat}
    (hLen : len ≤ sockaddrStorageSize)
    (hFits : (bytes16 family ++ rest).length ≤ sockaddrStorageSize) :
    (ofMembers (bytes16 family ++ rest) len hLen).sockaddr.family = family := by
  have hShort : 0 + 2 ≤ (bytes16 family ++ rest).length := by simp
  rw [Sockaddr.family, load16, window_ofMembers hLen hShort hFits]
  exact load16_append_bytes16 [] family rest

/-- The port that was written is the one that is told. -/
theorem getPort_ofMembers {family : UInt16} (port : UInt16)
    (rest : List UInt8) {len : Nat} (hLen : len ≤ sockaddrStorageSize)
    (hFamily : family = AF_INET ∨ family = AF_INET6)
    (hFits : (bytes16 family ++ (bytes16 (htons port) ++ rest)).length ≤
      sockaddrStorageSize) :
    (ofMembers (bytes16 family ++ (bytes16 (htons port) ++ rest)) len
      hLen).getPort = port := by
  have hShort : 2 + 2 ≤
      (bytes16 family ++ (bytes16 (htons port) ++ rest)).length := by
    simp only [List.length_append, length_bytes16]
    omega
  have hPort : (ofMembers (bytes16 family ++ (bytes16 (htons port) ++ rest)) len
      hLen).sockaddr.sinPort = htons port := by
    rw [Sockaddr.sinPort, load16, window_ofMembers hLen hShort hFits]
    exact load16_append_bytes16 (bytes16 family) (htons port) rest
  rw [getPort, family_ofMembers family _ hLen hFits, if_pos hFamily, hPort,
    htons_htons]

theorem getPort_makeIpv4 {text : InetText} {ip : List UInt8} {port : UInt16}
    {a : InetAddr} (hMade : makeIpv4 text ip port = some a) :
    a.getPort = port := by
  obtain ⟨addr, -, rfl⟩ := Option.map_eq_some_iff.mp hMade
  simp only [List.append_assoc]
  exact getPort_ofMembers port addr.val (by decide) (.inl rfl)
    (by simp [addr.2]; decide)

theorem getPort_makeIpv6 {text : InetText} {ip : List UInt8} {port : UInt16}
    {scopeId : UInt32} {a : InetAddr}
    (hMade : makeIpv6 text ip port scopeId = some a) : a.getPort = port := by
  obtain ⟨addr, -, rfl⟩ := Option.map_eq_some_iff.mp hMade
  simp only [List.append_assoc]
  exact getPort_ofMembers port _ (by decide) (.inr rfl)
    (by simp [addr.2]; decide)

/-- The scope id given to `make_ipv6` is kept. -/
theorem sin6ScopeId_makeIpv6 {text : InetText} {ip : List UInt8} {port : UInt16}
    {scopeId : UInt32} {a : InetAddr}
    (hMade : makeIpv6 text ip port scopeId = some a) :
    a.sockaddr.sin6ScopeId = scopeId := by
  obtain ⟨addr, -, rfl⟩ := Option.map_eq_some_iff.mp hMade
  let front := bytes16 AF_INET6 ++ bytes16 (htons port) ++ [0, 0, 0, 0] ++ addr.val
  have hFront : front.length = 24 := by
    simp [front, addr.2]
  have hLength : (front ++ bytes32 scopeId).length = 28 := by
    rw [List.length_append, hFront, length_bytes32]
  have hRead := load32_append_bytes32 front scopeId []
  rw [hFront, List.append_nil] at hRead
  rw [Sockaddr.sin6ScopeId, load32,
    window_ofMembers (by decide) (Nat.le_of_eq hLength.symm)
      (by rw [hLength]; decide)]
  exact hRead

/-! ## Unix names -/

/-- A name both factories of Unix addresses accept. -/
structure ValidName (name : List UInt8) : Prop where
  noNul : 0 ∉ name
  nonempty : name ≠ []
  short : name.length + 1 ≤ sunPathSize

theorem ValidName.len_le {name : List UInt8} (hValid : ValidName name) :
    sunPathOffset + name.length + 1 ≤ sockaddrStorageSize :=
  unix_len_le (Nat.not_lt.mpr hValid.short)

/-- The address of a Unix name with the `sun_path` that encodes it. -/
def sunAddr (name sunPath : List UInt8) (hValid : ValidName name) : InetAddr :=
  ofMembers (bytes16 AF_UNIX ++ sunPath) (sunPathOffset + name.length + 1)
    hValid.len_le

theorem makeSun_of_valid {name : List UInt8} (hValid : ValidName name)
    (sunPath : List UInt8) :
    makeSun name sunPath = some (sunAddr name sunPath hValid) := by
  have hNul : ¬ name.contains 0 = true := by
    simpa using hValid.noNul
  have hEmpty : ¬ name.isEmpty = true := by
    simpa using hValid.nonempty
  rw [makeSun, if_neg hNul, if_neg hEmpty, dif_neg (Nat.not_lt.mpr hValid.short)]
  rfl

theorem valid_of_makeSun {name sunPath : List UInt8} {a : InetAddr}
    (hMade : makeSun name sunPath = some a) :
    ∃ hValid : ValidName name, a = sunAddr name sunPath hValid := by
  have hValid : ValidName name := by
    simp only [makeSun] at hMade
    split_ifs at hMade with hNul hEmpty hSize
    exact
      { noNul := by simpa using hNul
        nonempty := by simpa using hEmpty
        short := Nat.not_lt.mp hSize }
  rw [makeSun_of_valid hValid] at hMade
  exact ⟨hValid, (Option.some.inj hMade).symm⟩

theorem popBackNul_of_noNul {name : List UInt8} (hNul : 0 ∉ name) :
    popBackNul name = name := by
  refine List.rdropWhile_eq_self_iff.mpr fun hNonempty hLast => hNul ?_
  have hZero : name.getLast hNonempty = 0 := by simpa using hLast
  exact hZero ▸ List.getLast_mem hNonempty

theorem popBackNul_terminated {name : List UInt8} (hNul : 0 ∉ name) :
    popBackNul (name ++ [0]) = name := by
  rw [popBackNul, List.rdropWhile_concat_pos _ _ _ (by rfl)]
  exact popBackNul_of_noNul hNul

theorem length_terminated (path : List UInt8) :
    (path ++ [0]).length = path.length + 1 :=
  List.length_append

/-- The terminator does not make a path look like an abstract name. -/
theorem head?_terminated_ne {path : List UInt8} (hValid : ValidName path) :
    ¬ (path ++ [0]).head? = some 0 := by
  obtain ⟨first, rest, rfl⟩ := List.exists_cons_of_ne_nil hValid.nonempty
  intro hNul
  obtain rfl : first = 0 := by simpa using hNul
  exact hValid.noNul List.mem_cons_self

section SunAddr

variable {name sunPath : List UInt8} (hValid : ValidName name)
  (hLength : sunPath.length = name.length + 1)

/-- The length a Unix address has is one that is decoded. -/
theorem len_sunAddr :
    ¬ ((sunAddr name sunPath hValid).sockaddr.len ≤ sunPathOffset ∨
      sockaddrUnSize < (sunAddr name sunPath hValid).sockaddr.len) := by
  have hShort := hValid.short
  show ¬ (sunPathOffset + name.length + 1 ≤ sunPathOffset ∨
    sockaddrUnSize < sunPathOffset + name.length + 1)
  simp only [sunPathOffset, sockaddrUnSize, sunPathSize] at hShort ⊢
  omega

include hLength

theorem sunMembers_length :
    (bytes16 AF_UNIX ++ sunPath).length = sunPathOffset + name.length + 1 := by
  rw [List.length_append, length_bytes16, hLength, ← Nat.add_assoc]
  rfl

theorem family_sunAddr :
    (sunAddr name sunPath hValid).sockaddr.family = AF_UNIX := by
  refine family_ofMembers AF_UNIX sunPath hValid.len_le ?_
  rw [sunMembers_length hLength]
  exact hValid.len_le

theorem sunPath_sunAddr :
    (sunAddr name sunPath hValid).sockaddr.sunPath = sunPath := by
  have hMembers := sunMembers_length hLength
  have hBack := window_append_back (bytes16 AF_UNIX) sunPath 0 sunPath.length
  rw [Nat.add_zero, length_bytes16, hLength, ← Nat.add_assoc] at hBack
  have hWhole : window sunPath 0 (name.length + 1) = sunPath := by
    rw [← hLength]
    simp [window]
  show window _ sunPathOffset (sunPathOffset + name.length + 1) = sunPath
  rw [sunAddr, window_ofMembers _ (Nat.le_of_eq hMembers.symm)
    (by rw [hMembers]; exact hValid.len_le)]
  exact hBack.trans hWhole

end SunAddr

/-! ## Decoding, family by family -/

theorem makeFromSockaddr_inet {addr : Sockaddr} (hFamily : addr.family = AF_INET)
    (hLen : sockaddrInSize ≤ addr.len) :
    makeFromSockaddr (some addr) =
      some (ofMembers (addr.bytes.take sockaddrInSize) sockaddrInSize
        (by decide)) := by
  simp only [makeFromSockaddr, hFamily, if_true, if_neg (Nat.not_lt.mpr hLen)]

theorem makeFromSockaddr_inet6 {addr : Sockaddr}
    (hFamily : addr.family = AF_INET6) (hLen : sockaddrIn6Size ≤ addr.len) :
    makeFromSockaddr (some addr) =
      some (ofMembers (addr.bytes.take sockaddrIn6Size) sockaddrIn6Size
        (by decide)) := by
  have hOther : ¬ AF_INET6 = AF_INET := by decide
  simp only [makeFromSockaddr, hFamily, if_neg hOther, if_true,
    if_neg (Nat.not_lt.mpr hLen)]

theorem makeFromSockaddr_unix {addr : Sockaddr} (hFamily : addr.family = AF_UNIX)
    (hLen : ¬ (addr.len ≤ sunPathOffset ∨ sockaddrUnSize < addr.len)) :
    makeFromSockaddr (some addr) =
      if addr.sunPath.head? = some 0 then
        makeAbstract (popBackNul (addr.sunPath.drop 1))
      else makeUnix (popBackNul addr.sunPath) := by
  have hNotInet : ¬ AF_UNIX = AF_INET := by decide
  have hNotInet6 : ¬ AF_UNIX = AF_INET6 := by decide
  simp only [makeFromSockaddr, hFamily, if_neg hNotInet, if_neg hNotInet6,
    if_true, if_neg hLen]

/-! ## Copied members -/

section Copy

variable {addr : Sockaddr} {count : Nat} (hSize : count ≤ sockaddrStorageSize)
  (hCount : count ≤ addr.len)

include hCount

/-- Within the bytes copied, the copy reads as the original. -/
theorem window_copy {first last : Nat} (hLast : last ≤ count) :
    window (ofMembers (addr.bytes.take count) count hSize).sockaddr.bytes first
      last = window addr.bytes first last := by
  have hReadable := addr.len_le
  have hLength : (addr.bytes.take count).length = count := by
    rw [List.length_take]
    omega
  rw [window_ofMembers hSize (by rwa [hLength]) (by rwa [hLength]),
    window_take addr.bytes hLast]

theorem family_copy (hLast : 2 ≤ count) :
    (ofMembers (addr.bytes.take count) count hSize).sockaddr.family =
      addr.family := by
  simp only [Sockaddr.family, load16, window_copy hSize hCount hLast]

theorem sinPort_copy (hLast : 4 ≤ count) :
    (ofMembers (addr.bytes.take count) count hSize).sockaddr.sinPort =
      addr.sinPort := by
  simp only [Sockaddr.sinPort, load16, window_copy hSize hCount hLast]

theorem sinAddr_copy (hLast : 8 ≤ count) :
    (ofMembers (addr.bytes.take count) count hSize).sockaddr.sinAddr =
      addr.sinAddr := by
  simp only [Sockaddr.sinAddr, load32, window_copy hSize hCount hLast]

theorem sin6Addr_copy (hLast : 24 ≤ count) :
    (ofMembers (addr.bytes.take count) count hSize).sockaddr.sin6Addr =
      addr.sin6Addr :=
  window_copy hSize hCount hLast

theorem sin6ScopeId_copy (hLast : 28 ≤ count) :
    (ofMembers (addr.bytes.take count) count hSize).sockaddr.sin6ScopeId =
      addr.sin6ScopeId := by
  simp only [Sockaddr.sin6ScopeId, load32, window_copy hSize hCount hLast]

end Copy

/-- The ways an address can be decoded. -/
inductive Decoded (addr : Sockaddr) : InetAddr → Prop
  | ipv4 (hFamily : addr.family = AF_INET) (hLen : sockaddrInSize ≤ addr.len) :
      Decoded addr
        (ofMembers (addr.bytes.take sockaddrInSize) sockaddrInSize (by decide))
  | ipv6 (hFamily : addr.family = AF_INET6) (hLen : sockaddrIn6Size ≤ addr.len) :
      Decoded addr
        (ofMembers (addr.bytes.take sockaddrIn6Size) sockaddrIn6Size (by decide))
  | abstract (hFamily : addr.family = AF_UNIX)
      (hLen : ¬ addr.len ≤ sunPathOffset) (hFirst : addr.sunPath.head? = some 0)
      (hValid : ValidName (popBackNul (addr.sunPath.drop 1))) :
      Decoded addr (sunAddr (popBackNul (addr.sunPath.drop 1))
        (0 :: popBackNul (addr.sunPath.drop 1)) hValid)
  | path (hFamily : addr.family = AF_UNIX) (hLen : ¬ addr.len ≤ sunPathOffset)
      (hFirst : ¬ addr.sunPath.head? = some 0)
      (hValid : ValidName (popBackNul addr.sunPath)) :
      Decoded addr (sunAddr (popBackNul addr.sunPath)
        (popBackNul addr.sunPath ++ [0]) hValid)

theorem decoded {addr : Sockaddr} {a : InetAddr}
    (hDecoded : makeFromSockaddr (some addr) = some a) : Decoded addr a := by
  simp only [makeFromSockaddr] at hDecoded
  split_ifs at hDecoded with hInet hShort hInet6 hShort6 hUnix hLen hFirst
  · obtain rfl := Option.some.inj hDecoded
    exact .ipv4 hInet (Nat.not_lt.mp hShort)
  · obtain rfl := Option.some.inj hDecoded
    exact .ipv6 hInet6 (Nat.not_lt.mp hShort6)
  · obtain ⟨hValid, rfl⟩ := valid_of_makeSun hDecoded
    exact .abstract hUnix (not_or.mp hLen).1 hFirst hValid
  · obtain ⟨hValid, rfl⟩ := valid_of_makeSun hDecoded
    exact .path hUnix (not_or.mp hLen).1 hFirst hValid

/-- The address of a Unix name is not too short to be one. -/
theorem sunAddr_len {name : List UInt8} (hValid : ValidName name)
    (sunPath : List UInt8) :
    ¬ (sunAddr name sunPath hValid).sockaddr.len ≤ sunPathOffset :=
  (not_or.mp (len_sunAddr hValid)).1

/-! ## The round trip -/

/-- An address of one of the four factories. -/
inductive Made (text : InetText) : InetAddr → Prop
  | ipv4 {ip : List UInt8} {port : UInt16} {a : InetAddr}
      (hMade : makeIpv4 text ip port = some a) : Made text a
  | ipv6 {ip : List UInt8} {port : UInt16} {scopeId : UInt32} {a : InetAddr}
      (hMade : makeIpv6 text ip port scopeId = some a) : Made text a
  | unix {path : List UInt8} {a : InetAddr}
      (hMade : makeUnix path = some a) : Made text a
  | abstract {name : List UInt8} {a : InetAddr}
      (hMade : makeAbstract name = some a) : Made text a

/-- Copying the members out of a storage and into a zeroed one. -/
theorem ofMembers_take {members : List UInt8} {len count : Nat}
    (hLen : len ≤ sockaddrStorageSize) (hCount : members.length ≤ count)
    (hSize : count ≤ sockaddrStorageSize) :
    ofMembers ((ofMembers members len hLen).sockaddr.bytes.take count) len hLen =
      ofMembers members len hLen := by
  have hBytes := resize_take_resize (0 : UInt8) hCount hSize
  simp only [ofMembers, SockaddrStorage.ofBytes, sockaddr, InetAddr.mk.injEq,
    SockaddrStorage.mk.injEq, and_true]
  exact hBytes

theorem makeFromSockaddr_makeIpv4 {text : InetText} {ip : List UInt8}
    {port : UInt16} {a : InetAddr} (hMade : makeIpv4 text ip port = some a) :
    makeFromSockaddr (some a.sockaddr) = some a := by
  obtain ⟨addr, -, rfl⟩ := Option.map_eq_some_iff.mp hMade
  have hLength : (bytes16 AF_INET ++ (bytes16 (htons port) ++ addr.val)).length =
      8 := by simp [addr.2]
  rw [List.append_assoc]
  have hSize : sockaddrInSize ≤ sockaddrStorageSize := by decide
  have hFamily := family_ofMembers AF_INET (bytes16 (htons port) ++ addr.val)
    hSize (by rw [hLength]; decide)
  have hCopy := ofMembers_take hSize
    (Nat.le_trans (Nat.le_of_eq hLength) (by decide)) hSize
  rw [makeFromSockaddr_inet hFamily (Nat.le_refl _), hCopy]

theorem makeFromSockaddr_makeIpv6 {text : InetText} {ip : List UInt8}
    {port : UInt16} {scopeId : UInt32} {a : InetAddr}
    (hMade : makeIpv6 text ip port scopeId = some a) :
    makeFromSockaddr (some a.sockaddr) = some a := by
  obtain ⟨addr, -, rfl⟩ := Option.map_eq_some_iff.mp hMade
  let rest := bytes16 (htons port) ++ [0, 0, 0, 0] ++ addr.val ++ bytes32 scopeId
  have hMembers : bytes16 AF_INET6 ++ bytes16 (htons port) ++ [0, 0, 0, 0] ++
      addr.val ++ bytes32 scopeId = bytes16 AF_INET6 ++ rest := by
    simp only [rest, List.append_assoc]
  have hLength : (bytes16 AF_INET6 ++ rest).length = sockaddrIn6Size := by
    simp [rest, addr.2, sockaddrIn6Size]
  simp only [hMembers]
  have hSize : sockaddrIn6Size ≤ sockaddrStorageSize := by decide
  have hFamily := family_ofMembers AF_INET6 rest hSize (by rw [hLength]; decide)
  have hCopy := ofMembers_take hSize (Nat.le_of_eq hLength) hSize
  rw [makeFromSockaddr_inet6 hFamily (Nat.le_refl _), hCopy]

theorem makeFromSockaddr_makeUnix {path : List UInt8} {a : InetAddr}
    (hMade : makeUnix path = some a) :
    makeFromSockaddr (some a.sockaddr) = some a := by
  obtain ⟨hValid, rfl⟩ := valid_of_makeSun hMade
  have hLength := length_terminated path
  rw [makeFromSockaddr_unix (family_sunAddr hValid hLength) (len_sunAddr hValid),
    sunPath_sunAddr hValid hLength, if_neg (head?_terminated_ne hValid),
    popBackNul_terminated hValid.noNul]
  exact makeSun_of_valid hValid _

theorem makeFromSockaddr_makeAbstract {name : List UInt8} {a : InetAddr}
    (hMade : makeAbstract name = some a) :
    makeFromSockaddr (some a.sockaddr) = some a := by
  obtain ⟨hValid, rfl⟩ := valid_of_makeSun hMade
  have hLength : (0 :: name).length = name.length + 1 := rfl
  rw [makeFromSockaddr_unix (family_sunAddr hValid hLength) (len_sunAddr hValid),
    sunPath_sunAddr hValid hLength, List.head?_cons, if_pos rfl, List.drop_one,
    List.tail_cons,
    popBackNul_of_noNul hValid.noNul]
  exact makeSun_of_valid hValid _

theorem Made.decodes {text : InetText} {a : InetAddr} (hMade : Made text a) :
    makeFromSockaddr (some a.sockaddr) = some a := by
  cases hMade with
  | ipv4 hMade => exact makeFromSockaddr_makeIpv4 hMade
  | ipv6 hMade => exact makeFromSockaddr_makeIpv6 hMade
  | unix hMade => exact makeFromSockaddr_makeUnix hMade
  | abstract hMade => exact makeFromSockaddr_makeAbstract hMade

theorem Made.ident {text : InetText} {a : InetAddr} (hMade : Made text a) :
    ∃ i, a.ident = some i := by
  cases hMade with
  | ipv4 hMade =>
      obtain ⟨addr, -, rfl⟩ := Option.map_eq_some_iff.mp hMade
      rw [List.append_assoc]
      exact ⟨_, ident_inet (family_ofMembers _ _ _ (by simp [addr.2]; decide))⟩
  | ipv6 hMade =>
      obtain ⟨addr, -, rfl⟩ := Option.map_eq_some_iff.mp hMade
      simp only [List.append_assoc]
      exact ⟨_, ident_inet6 (family_ofMembers _ _ _ (by simp [addr.2]; decide))⟩
  | unix hMade =>
      obtain ⟨hValid, rfl⟩ := valid_of_makeSun hMade
      exact ⟨_, ident_unix (family_sunAddr hValid (length_terminated _))
        (Nat.lt_succ_of_le (Nat.le_add_right _ _))⟩
  | abstract hMade =>
      obtain ⟨hValid, rfl⟩ := valid_of_makeSun hMade
      exact ⟨_, ident_unix (family_sunAddr hValid rfl)
        (Nat.lt_succ_of_le (Nat.le_add_right _ _))⟩

/-- **Round trip.**  What any of the four factories makes, on any input it
accepts, is decoded to an address that is equal to it and has the same length,
port and text. -/
theorem address_roundtrip (text : InetText) (a : InetAddr)
    (hMade : Made text a) :
    ∃ b, makeFromSockaddr (some a.sockaddr) = some b ∧ b.eq a = true ∧
      b.socklen = a.socklen ∧ b.getPort = a.getPort ∧
      b.getIpOrPath text = a.getIpOrPath text := by
  obtain ⟨i, hIdent⟩ := hMade.ident
  exact ⟨a, hMade.decodes, eq_iff.mpr ⟨i, hIdent, hIdent⟩, rfl, rfl, rfl⟩

/-- The longest path there is room for. -/
theorem address_roundtrip_longest_path :
    let text : InetText := ⟨fun _ => none, fun _ => none, fun _ => none,
      fun _ => none⟩
    let path := List.replicate 107 0x61
    ∃ a b, makeUnix path = some a ∧ makeFromSockaddr (some a.sockaddr) = some b ∧
      b.eq a = true ∧ b.socklen = 110 ∧
      b.getIpOrPath text = a.getIpOrPath text := by
  intro text path
  have hValid : ValidName path := ⟨by decide +kernel, by decide, by decide⟩
  have hMade : makeUnix path = some (sunAddr path (path ++ [0]) hValid) :=
    makeSun_of_valid hValid _
  obtain ⟨b, hDecoded, hEq, hLen, -, hText⟩ :=
    address_roundtrip text _ (.unix hMade)
  exact ⟨_, b, hMade, hDecoded, hEq, hLen, hText⟩

end InetAddr

end Net
end KZEvent

import KZEvent.Net.AddrCodec

/-!
# The path of a Unix socket

`UnixServer` and `UnixClient` keep the text of their local address.  When they
are destroyed they decide by it whether there is a file to remove: a text that
begins with `@` is taken for an abstract name.  Nothing keeps a path from
beginning with `@` as well.
-/

namespace KZEvent
namespace Net

open Foundation

/-- The character `@`. -/
def atSign : UInt8 := 0x40

/-- What `UnixServer` and `UnixClient` keep of their local address. -/
structure UnixSocket where
  path : List UInt8

namespace UnixSocket

/-- The check of the family both factories make, and the constructor. -/
def make (text : InetText) (addr : InetAddr) : Option UnixSocket :=
  if addr.sockaddr.family ≠ AF_UNIX then none
  else some ⟨addr.getIpOrPath text⟩

/-- `make_unix_server`, where the channel could be made. -/
def makeUnixServer (text : InetText) (addr : InetAddr) : Option UnixSocket :=
  make text addr

/-- `make_unix_client`, where the channel could be made. -/
def makeUnixClient (text : InetText) (addr : InetAddr) : Option UnixSocket :=
  make text addr

/-- `cleanup_path`, the body of both destructors: the argument of `unlink` where
it is called. -/
def cleanupPath (s : UnixSocket) : Option (List UInt8) :=
  if ¬ s.path.isEmpty ∧ s.path.head? ≠ some atSign then some (cStr s.path)
  else none

end UnixSocket

/-! ## Unix names and their texts -/

/-- What a Unix address is made from. -/
inductive UnixName
  | path (chars : List UInt8)
  | abstract (chars : List UInt8)

namespace UnixName

/-- The factory of the address. -/
def addr : UnixName → Option InetAddr
  | .path chars => InetAddr.makeUnix chars
  | .abstract chars => InetAddr.makeAbstract chars

/-- The file that binding the address creates. -/
def file : UnixName → Option (List UInt8)
  | .path chars => some chars
  | .abstract _ => none

/-- The text of the address. -/
def shown : UnixName → List UInt8
  | .path chars => chars
  | .abstract chars => atSign :: chars

/-- A path that is shown as an abstract name is. -/
def ShownAsAbstract : UnixName → Prop
  | .path chars => chars.head? = some atSign
  | .abstract _ => False

def chars : UnixName → List UInt8
  | .path chars => chars
  | .abstract chars => chars

/-- The bytes the factory writes to `sun_path`. -/
def sunPath : UnixName → List UInt8
  | .path chars => chars ++ [0]
  | .abstract chars => 0 :: chars

variable {name other : UnixName} {a b : InetAddr} {text : InetText}

theorem length_sunPath (name : UnixName) :
    name.sunPath.length = name.chars.length + 1 := by
  cases name with
  | path chars => exact InetAddr.length_terminated chars
  | abstract chars => rfl

theorem valid_of_addr (hMade : name.addr = some a) :
    ∃ hValid : InetAddr.ValidName name.chars,
      a = InetAddr.sunAddr name.chars name.sunPath hValid := by
  cases name with
  | path chars => exact InetAddr.valid_of_makeSun hMade
  | abstract chars => exact InetAddr.valid_of_makeSun hMade

theorem addr_of_valid (hValid : InetAddr.ValidName name.chars) :
    ∃ a, name.addr = some a := by
  cases name with
  | path chars => exact ⟨_, InetAddr.makeSun_of_valid hValid _⟩
  | abstract chars => exact ⟨_, InetAddr.makeSun_of_valid hValid _⟩

theorem family_of_addr (hMade : name.addr = some a) :
    a.sockaddr.family = AF_UNIX := by
  obtain ⟨hValid, rfl⟩ := valid_of_addr hMade
  exact InetAddr.family_sunAddr hValid name.length_sunPath

theorem sunPath_of_addr (hMade : name.addr = some a) :
    a.sockaddr.sunPath = name.sunPath := by
  obtain ⟨hValid, rfl⟩ := valid_of_addr hMade
  exact InetAddr.sunPath_sunAddr hValid name.length_sunPath

/-- The first byte of `sun_path` tells an abstract name from a path. -/
theorem head?_sunPath (hValid : InetAddr.ValidName name.chars) :
    name.sunPath.head? = some 0 ↔ name.file = none := by
  cases name with
  | path chars =>
      have hPath : ¬ (chars ++ [0]).head? = some 0 :=
        InetAddr.head?_terminated_ne hValid
      simp only [sunPath, hPath, file, reduceCtorEq]
  | abstract chars => simp only [sunPath, List.head?_cons, file]

/-- An address is made from one name. -/
theorem addr_injective (hMade : name.addr = some a)
    (hOther : other.addr = some a) : name = other := by
  obtain ⟨hValid, -⟩ := valid_of_addr hMade
  obtain ⟨hOtherValid, -⟩ := valid_of_addr hOther
  have hSame : name.sunPath = other.sunPath :=
    (sunPath_of_addr hMade).symm.trans (sunPath_of_addr hOther)
  have hKind : name.file = none ↔ other.file = none := by
    rw [← head?_sunPath hValid, hSame, head?_sunPath hOtherValid]
  cases name with
  | path first =>
      cases other with
      | path second => exact congrArg path (List.append_cancel_right hSame)
      | abstract second => simp [file] at hKind
  | abstract first =>
      cases other with
      | path second => simp [file] at hKind
      | abstract second => exact congrArg abstract (List.cons.inj hSame).2

/-- Behind the family, the storage holds a path and its terminator. -/
theorem cStr_storage {chars : List UInt8} (hValid : InetAddr.ValidName chars) :
    cStr ((InetAddr.sunAddr chars (chars ++ [0]) hValid).sockaddr.bytes.drop
      sunPathOffset) = chars := by
  have hMembers := InetAddr.sunMembers_length (InetAddr.length_terminated chars)
  have hBytes : (InetAddr.sunAddr chars (chars ++ [0]) hValid).sockaddr.bytes =
      bytes16 AF_UNIX ++ (chars ++ [0]) ++ List.replicate (sockaddrStorageSize -
        (bytes16 AF_UNIX ++ (chars ++ [0])).length) 0 := by
    show resize 0 (bytes16 AF_UNIX ++ (chars ++ [0])) sockaddrStorageSize = _
    rw [resize, List.take_of_length_le]
    rw [hMembers]
    exact hValid.len_le
  have hFront : (bytes16 AF_UNIX).length = sunPathOffset := length_bytes16 _
  rw [hBytes, List.append_assoc, ← hFront, List.drop_left, List.append_assoc,
    cStr, List.takeWhile_append_of_pos]
  · simp
  · intro char hChar
    exact decide_eq_true fun hZero => hValid.noNul (hZero ▸ hChar)

/-- `get_ip_or_path` shows a path as it is, and an abstract name behind `@`. -/
theorem getIpOrPath_eq (hMade : name.addr = some a) :
    a.getIpOrPath text = name.shown := by
  have hNotInet : ¬ AF_UNIX = AF_INET := by decide
  have hNotInet6 : ¬ AF_UNIX = AF_INET6 := by decide
  have hLen : ¬ a.socklen ≤ sunPathOffset := by
    obtain ⟨hValid, rfl⟩ := valid_of_addr hMade
    exact InetAddr.sunAddr_len hValid name.sunPath
  rw [InetAddr.getIpOrPath, family_of_addr hMade, if_neg hNotInet,
    if_neg hNotInet6, if_pos rfl, if_neg hLen, sunPath_of_addr hMade]
  obtain ⟨hValid, rfl⟩ := valid_of_addr hMade
  cases name with
  | path chars =>
      have hPath : ¬ (chars ++ [0]).head? = some 0 :=
        InetAddr.head?_terminated_ne hValid
      rw [sunPath, if_neg hPath]
      exact cStr_storage hValid
  | abstract chars => rfl

/-- No text has a NUL in it: as a C string it is complete. -/
theorem cStr_shown (hMade : name.addr = some a) :
    cStr name.shown = name.shown := by
  obtain ⟨hValid, -⟩ := valid_of_addr hMade
  have hNul : 0 ∉ name.shown := by
    cases name with
    | path chars => exact hValid.noNul
    | abstract chars =>
        have hAt : (0 : UInt8) ≠ atSign := by decide
        exact List.not_mem_cons_of_ne_of_not_mem hAt hValid.noNul
  refine List.takeWhile_eq_self_iff.mpr fun char hChar => ?_
  exact decide_eq_true fun hZero => hNul (hZero ▸ hChar)

theorem shown_ne_nil (hMade : name.addr = some a) : name.shown ≠ [] := by
  cases name with
  | path chars =>
      obtain ⟨hValid, -⟩ := valid_of_addr hMade
      exact hValid.nonempty
  | abstract chars => exact List.cons_ne_nil _ _

/-- Two names of one text are the same, or one of them is a path that is shown
as the other. -/
theorem shown_eq_iff : name.shown = other.shown ↔
    name = other ∨ (∃ chars, name = path (atSign :: chars) ∧
        other = abstract chars) ∨
      ∃ chars, name = abstract chars ∧ other = path (atSign :: chars) := by
  cases name with
  | path first =>
      cases other with
      | path second => simp [shown]
      | abstract second => simp [shown]
  | abstract first =>
      cases other with
      | path second => simp [shown, eq_comm]
      | abstract second => simp [shown]

end UnixName

/-! ## What the destructors remove -/

namespace UnixSocket

variable {name other : UnixName} {a b : InetAddr} {text : InetText}

theorem make_of_addr (hMade : name.addr = some a) :
    make text a = some ⟨name.shown⟩ := by
  have hFamily : ¬ a.sockaddr.family ≠ AF_UNIX :=
    not_not.mpr (UnixName.family_of_addr hMade)
  rw [make, if_neg hFamily, UnixName.getIpOrPath_eq hMade]

/-- A text that does not begin with `@` is removed. -/
theorem cleanupPath_shown (hMade : name.addr = some a) :
    cleanupPath ⟨name.shown⟩ =
      if name.shown.head? = some atSign then none else some name.shown := by
  have hNonempty : ¬ name.shown.isEmpty = true := by
    simpa using UnixName.shown_ne_nil hMade
  by_cases hAt : name.shown.head? = some atSign
  · rw [if_pos hAt, cleanupPath, if_neg fun hCheck => hCheck.2 hAt]
  · rw [if_neg hAt, cleanupPath, if_pos ⟨hNonempty, hAt⟩,
      UnixName.cStr_shown hMade]

/-- The destructors remove the file of the address, if it has one. -/
theorem cleanupPath_eq_file_iff (hMade : name.addr = some a) :
    cleanupPath ⟨name.shown⟩ = name.file ↔ ¬ name.ShownAsAbstract := by
  rw [cleanupPath_shown hMade]
  cases name with
  | path chars =>
      simp only [UnixName.shown, UnixName.file, UnixName.ShownAsAbstract]
      split_ifs with hAt
      · simp [hAt]
      · simp [hAt]
  | abstract chars =>
      simp [UnixName.shown, UnixName.file, UnixName.ShownAsAbstract]

/-- **Cleaning up exactly the paths.**  For an address of either factory, the
destructors of server and client unlink its file when it has one, and nothing
otherwise, if and only if it is not a path beginning with `@`.  Two addresses of
one text are the same if and only if both or neither are such a path. -/
theorem cleanup_path_exact_iff (text : InetText) (name : UnixName) (a : InetAddr)
    (hMade : name.addr = some a) :
    (((makeUnixServer text a).map cleanupPath = some name.file ∧
        (makeUnixClient text a).map cleanupPath = some name.file) ↔
      ¬ name.ShownAsAbstract) ∧
    ∀ other b, UnixName.addr other = some b →
      a.getIpOrPath text = b.getIpOrPath text →
      (a = b ↔ (name.ShownAsAbstract ↔ other.ShownAsAbstract)) := by
  constructor
  · simp only [makeUnixServer, makeUnixClient, make_of_addr hMade,
      Option.map_some, Option.some.injEq, and_self]
    exact cleanupPath_eq_file_iff hMade
  · intro other b hOther hText
    rw [UnixName.getIpOrPath_eq hMade, UnixName.getIpOrPath_eq hOther,
      UnixName.shown_eq_iff] at hText
    constructor
    · rintro rfl
      rw [UnixName.addr_injective hMade hOther]
    · intro hKind
      rcases hText with rfl | ⟨chars, rfl, rfl⟩ | ⟨chars, rfl, rfl⟩
      · exact Option.some.inj (hMade.symm.trans hOther)
      · simp [UnixName.ShownAsAbstract] at hKind
      · simp [UnixName.ShownAsAbstract] at hKind

/-- A server bound to `/a` removes the file `/a`. -/
theorem cleanup_path_exact_slash :
    ∃ a, (UnixName.path [0x2f, 0x61]).addr = some a ∧ ∀ text,
      (makeUnixServer text a).map cleanupPath = some (some [0x2f, 0x61]) := by
  have hValid : InetAddr.ValidName [0x2f, 0x61] :=
    ⟨by decide, by decide, by decide⟩
  obtain ⟨a, hMade⟩ := @UnixName.addr_of_valid (.path [0x2f, 0x61]) hValid
  refine ⟨a, hMade, fun text => ?_⟩
  have hSlash : ¬ (UnixName.path [0x2f, 0x61]).ShownAsAbstract := by
    simp [UnixName.ShownAsAbstract, atSign]
  exact ((cleanup_path_exact_iff text _ _ hMade).1.mpr hSlash).1

/-- A server bound to the path `@a` leaves its file behind: its address has the
text of the abstract name `a`, which is another address. -/
theorem at_path_left_behind :
    ∃ a b, (UnixName.path [atSign, 0x61]).addr = some a ∧
      (UnixName.abstract [0x61]).addr = some b ∧ a ≠ b ∧ ∀ text,
        a.getIpOrPath text = b.getIpOrPath text ∧
        (makeUnixServer text a).map cleanupPath = some none ∧
        (makeUnixClient text a).map cleanupPath = some none := by
  have hPathValid : InetAddr.ValidName [atSign, 0x61] :=
    ⟨by decide, by decide, by decide⟩
  have hNameValid : InetAddr.ValidName [0x61] :=
    ⟨by decide, by decide, by decide⟩
  obtain ⟨a, hPath⟩ := @UnixName.addr_of_valid (.path [atSign, 0x61]) hPathValid
  obtain ⟨b, hAbstract⟩ := @UnixName.addr_of_valid (.abstract [0x61]) hNameValid
  have hOther : a ≠ b := by
    rintro rfl
    have hName := UnixName.addr_injective hPath hAbstract
    cases hName
  refine ⟨a, b, hPath, hAbstract, hOther, fun text => ?_⟩
  have hText : a.getIpOrPath text = b.getIpOrPath text := by
    rw [UnixName.getIpOrPath_eq hPath, UnixName.getIpOrPath_eq hAbstract]
    rfl
  have hKept : (make text a).map cleanupPath = some none := by
    rw [make_of_addr hPath]
    rfl
  exact ⟨hText, hKept, hKept⟩

end UnixSocket

end Net
end KZEvent

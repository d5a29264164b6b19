import KZEvent.Foundation.HashTable
import KZEvent.Net.AddrCodec

/-!
# Addresses as keys of a hash table

`operator==` and `hash` look at the same members, family by family.  So equality
is symmetric and transitive and refines the hash, and it is reflexive on every
address that a factory or the decoder makes.
-/

namespace KZEvent
namespace Net

open Foundation

namespace InetAddr

/-- The addresses there are: those of the factories, and the decoded ones. -/
inductive Obtainable (text : InetText) (a : InetAddr) : Prop
  | made (hMade : Made text a)
  | fromSockaddr {addr : Option Sockaddr}
      (hDecoded : makeFromSockaddr addr = some a)

theorem Decoded.ident {addr : Sockaddr} {a : InetAddr}
    (hDecoded : Decoded addr a) : ∃ i, a.ident = some i := by
  cases hDecoded with
  | ipv4 hFamily hLen =>
      exact ⟨_, ident_inet ((family_copy _ hLen (by decide)).trans hFamily)⟩
  | ipv6 hFamily hLen =>
      exact ⟨_, ident_inet6 ((family_copy _ hLen (by decide)).trans hFamily)⟩
  | abstract hFamily hLen hFirst hValid =>
      let name := popBackNul (addr.sunPath.drop 1)
      exact ⟨_, ident_unix (family_sunAddr hValid rfl)
        (Nat.not_le.mp (sunAddr_len hValid (0 :: name)))⟩
  | path hFamily hLen hFirst hValid =>
      let path := popBackNul addr.sunPath
      exact ⟨_, ident_unix (family_sunAddr hValid (length_terminated path))
        (Nat.not_le.mp (sunAddr_len hValid (path ++ [0])))⟩

theorem Obtainable.ident {text : InetText} {a : InetAddr}
    (hObtained : Obtainable text a) : ∃ i, a.ident = some i := by
  cases hObtained with
  | made hMade => exact hMade.ident
  | @fromSockaddr addr hDecoded =>
      cases addr with
      | none => cases hDecoded
      | some addr => exact (decoded hDecoded).ident

/-- The hash of the compared members. -/
def Ident.hash (std : StdHash) : Ident → UInt64
  | inet port addr =>
      hashCombine (hashCombine (hashCombine 0 (std.uint16 AF_INET))
        (std.uint32 addr)) (std.uint16 port)
  | inet6 port addr =>
      hashCombine (hashCombine (hashCombine 0 (std.uint16 AF_INET6))
        (std.bytes addr)) (std.uint16 port)
  | unix _ path =>
      hashCombine (hashCombine 0 (std.uint16 AF_UNIX)) (std.bytes path)

/-- `hash` looks at nothing but the compared members. -/
theorem hash_of_ident (std : StdHash) {a : InetAddr} {i : Ident}
    (hIdent : a.ident = some i) : a.hash std = i.hash std := by
  have hNotInet : ¬ AF_UNIX = AF_INET := by decide
  have hNotInet6 : ¬ AF_UNIX = AF_INET6 := by decide
  have hOther : ¬ AF_INET6 = AF_INET := by decide
  rcases ident_cases hIdent with ⟨hFamily, rfl⟩ | ⟨hFamily, rfl⟩ |
    ⟨hFamily, hLong, rfl⟩
  · simp only [hash, hFamily, if_true, Ident.hash]
  · simp only [hash, hFamily, if_neg hOther, if_true, Ident.hash]
  · simp only [hash, hFamily, if_neg hNotInet, if_neg hNotInet6, if_true,
      if_pos hLong, Ident.hash]

theorem eq_symm {a b : InetAddr} (hEq : a.eq b = true) : b.eq a = true := by
  obtain ⟨i, hLeft, hRight⟩ := eq_iff.mp hEq
  exact eq_iff.mpr ⟨i, hRight, hLeft⟩

theorem eq_trans {a b c : InetAddr} (hLeft : a.eq b = true)
    (hRight : b.eq c = true) : a.eq c = true := by
  obtain ⟨i, hFirst, hMiddle⟩ := eq_iff.mp hLeft
  obtain ⟨j, hMiddle', hLast⟩ := eq_iff.mp hRight
  obtain rfl : i = j := Option.some.inj (hMiddle.symm.trans hMiddle')
  exact eq_iff.mpr ⟨i, hFirst, hLast⟩

theorem hash_eq_of_eq (std : StdHash) {a b : InetAddr} (hEq : a.eq b = true) :
    a.hash std = b.hash std := by
  obtain ⟨i, hLeft, hRight⟩ := eq_iff.mp hEq
  rw [hash_of_ident std hLeft, hash_of_ident std hRight]

theorem keyEquiv : KeyEquiv eq where
  symm _ _ := eq_symm
  trans _ _ _ := eq_trans

/-- What `std::unordered_map` asks of `InetAddr`. -/
theorem keyLaws (std : StdHash) : KeyLaws eq (hash std) where
  toKeyEquiv := keyEquiv
  hash_eq _ _ := hash_eq_of_eq std

theorem eq_self_of_ident {a : InetAddr} {i : Ident} (hIdent : a.ident = some i) :
    a.eq a = true :=
  eq_iff.mpr ⟨i, hIdent, hIdent⟩

/-- **Addresses are lawful hash keys.**  On the addresses the factories and the
decoder make, in any mixture, `operator==` is an equivalence with `operator!=`
as its negation, and equal addresses have equal hashes, whatever `std::hash`
does.  So in a table keyed by such addresses, with no two entries equal, a
lookup finds an entry exactly if its key is equal to the one looked for, however
the buckets are laid out. -/
theorem inetAddr_lawful_key (text : InetText) (std : StdHash) :
    (∀ a, Obtainable text a → a.eq a = true) ∧
    (∀ a b, Obtainable text a → Obtainable text b → a.eq b = b.eq a) ∧
    (∀ a b c, Obtainable text a → Obtainable text b → Obtainable text c →
      a.eq b = true → b.eq c = true → a.eq c = true) ∧
    (∀ a b, Obtainable text a → Obtainable text b → a.ne b = !a.eq b) ∧
    (∀ a b, Obtainable text a → Obtainable text b → a.eq b = true →
      a.hash std = b.hash std) ∧
    ∀ (Value : Type) (bucketOf : UInt64 → Nat)
      (entries : List (InetAddr × Value)) (key : InetAddr)
      (entry : InetAddr × Value),
      (∀ known ∈ entries, Obtainable text known.1) → Obtainable text key →
      HashTable.Distinct eq entries →
      (HashTable.find eq (hash std) bucketOf entries key = some entry ↔
        entry ∈ entries ∧ entry.1.eq key = true) := by
  refine ⟨?_, ?_, ?_, ?_, ?_, ?_⟩
  · intro a hObtained
    obtain ⟨i, hIdent⟩ := hObtained.ident
    exact eq_self_of_ident hIdent
  · intro a b _ _
    exact Bool.eq_iff_iff.mpr ⟨eq_symm, eq_symm⟩
  · intro a b c _ _ _
    exact eq_trans
  · intro a b _ _
    rfl
  · intro a b _ _
    exact hash_eq_of_eq std
  · intro Value bucketOf entries key entry _ _ hDistinct
    rw [HashTable.find_eq_lookup (keyLaws std)]
    exact HashTable.lookup_eq_some_iff keyEquiv hDistinct

/-- A session stored under the address a factory made is found under the address
that was decoded from a `sockaddr`, in a table with one bucket. -/
theorem inetAddr_lawful_key_mixed :
    let std : StdHash := ⟨UInt16.toUInt64, UInt32.toUInt64, fun bytes =>
      bytes.foldl (fun sum byte => sum + byte.toUInt64) 0⟩
    ∃ path name decoded, makeUnix [0x2f, 0x61] = some path ∧
      makeAbstract [0x61] = some name ∧
      makeFromSockaddr (some name.sockaddr) = some decoded ∧
      name.hash std = decoded.hash std ∧
      HashTable.find eq (hash std) (fun _ => 0) [(path, 1), (name, 2)] decoded =
        some (name, 2) := by
  intro std
  let text : InetText :=
    ⟨fun _ => none, fun _ => none, fun _ => none, fun _ => none⟩
  have hPathValid : ValidName [0x2f, 0x61] := ⟨by decide, by decide, by decide⟩
  have hNameValid : ValidName [0x61] := ⟨by decide, by decide, by decide⟩
  have hPath := makeSun_of_valid hPathValid ([0x2f, 0x61] ++ [0])
  have hName := makeSun_of_valid hNameValid [0, 0x61]
  generalize sunAddr _ _ hPathValid = path at hPath
  generalize hNameAddr : sunAddr _ _ hNameValid = name at hName
  have hDecoded := makeFromSockaddr_makeAbstract hName
  have hPathKnown : Obtainable text path := .made (.unix hPath)
  have hNameKnown : Obtainable text name := .made (.abstract hName)
  have hDecodedKnown : Obtainable text name := .fromSockaddr hDecoded
  obtain ⟨hRefl, -, -, -, hHash, hFind⟩ := inetAddr_lawful_key text std
  have hSelf := hRefl name hNameKnown
  have hDiffer : ((makeUnix [0x2f, 0x61]).bind fun path =>
      (makeAbstract [0x61]).map fun name => path.eq name) = some false := by
    decide +kernel
  have hOther : path.eq name = false := by
    have hPathMade : makeUnix [0x2f, 0x61] = some path := hPath
    have hNameMade : makeAbstract [0x61] = some name := hName
    simpa [hPathMade, hNameMade] using hDiffer
  refine ⟨path, name, name, hPath, hName, hDecoded,
    hHash name name hNameKnown hDecodedKnown hSelf, ?_⟩
  refine (hFind Nat (fun _ => 0) _ name (name, 2) ?_ hDecodedKnown ?_).mpr
    ⟨by simp, hSelf⟩
  · intro known hKnown
    rcases List.mem_pair.mp hKnown with rfl | rfl
    · exact hPathKnown
    · exact hNameKnown
  · exact List.pairwise_pair.mpr hOther

end InetAddr
end Net
end KZEvent

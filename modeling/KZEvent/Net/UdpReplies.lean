import KZEvent.Net.KernelAddr
import KZEvent.Net.UdpSessions

/-!
# Where replies of a UDP session go

A session sends to the source of the datagram that opened it, and the datagrams
that join it are those with an equal source.  `operator==` looks at neither the
scope id of an IPv6 address nor the trailing NULs of an abstract name.  The
second cannot matter to a UDP server; the first does if two link-local senders
differ in nothing else.
-/

namespace KZEvent
namespace Net

open Foundation

namespace Sockaddr

/-- The scope ids are equal where the kernel looks at them. -/
def ScopeAgrees (left right : Sockaddr) : Prop :=
  left.family = AF_INET6 ∧ left.linkLocal = true →
    left.sin6ScopeId = right.sin6ScopeId

/-- Abstract names are equally long. -/
def PaddingAgrees (left right : Sockaddr) : Prop :=
  left.family = AF_UNIX ∧ left.sunPath.head? = some 0 →
    left.sunPath.length = right.sunPath.length

instance (left right : Sockaddr) : Decidable (left.ScopeAgrees right) :=
  inferInstanceAs (Decidable (_ → _))

variable {left right addr : Sockaddr}

/-! ## Addresses that differ in the ignored members only -/

/-- What a `sockaddr` denotes, by its family. -/
inductive Denotes (addr : Sockaddr) : KernelAddr → Prop
  | ipv4 (hFamily : addr.family = AF_INET) :
      Denotes addr (.ipv4 addr.sinAddr addr.sinPort)
  | ipv6 (hFamily : addr.family = AF_INET6) :
      Denotes addr (.ipv6 addr.sin6Addr addr.sinPort
        (if addr.linkLocal then some addr.sin6ScopeId else none))
  | abstract (hFamily : addr.family = AF_UNIX)
      (hFirst : addr.sunPath.head? = some 0) :
      Denotes addr (.abstract (addr.sunPath.drop 1))
  | pathname (hFamily : addr.family = AF_UNIX)
      (hFirst : addr.sunPath.head? ≠ some 0) :
      Denotes addr (.pathname (cStr addr.sunPath))

theorem denotes {kernel : KernelAddr} (hKernel : addr.kernelAddr = some kernel) :
    Denotes addr kernel := by
  unfold kernelAddr at hKernel
  by_cases hInet : addr.family = AF_INET
  · rw [if_pos hInet] at hKernel
    obtain ⟨-, hSome⟩ := Option.ite_none_left_eq_some.mp hKernel
    obtain rfl := Option.some.inj hSome
    exact .ipv4 hInet
  rw [if_neg hInet] at hKernel
  by_cases hInet6 : addr.family = AF_INET6
  · rw [if_pos hInet6] at hKernel
    obtain ⟨-, hSome⟩ := Option.ite_none_left_eq_some.mp hKernel
    obtain rfl := Option.some.inj hSome
    exact .ipv6 hInet6
  rw [if_neg hInet6] at hKernel
  obtain ⟨hUnix, hNamed⟩ := Option.ite_none_right_eq_some.mp hKernel
  obtain ⟨-, hSome⟩ := Option.ite_none_left_eq_some.mp hNamed
  by_cases hFirst : addr.sunPath.head? = some 0
  · rw [if_pos hFirst] at hSome
    obtain rfl := Option.some.inj hSome
    exact .abstract hUnix hFirst
  · rw [if_neg hFirst] at hSome
    obtain rfl := Option.some.inj hSome
    exact .pathname hUnix hFirst

/-- Names that are equal without their trailing NULs are equal if they are
equally long. -/
theorem eq_of_popBackNul_eq {left right : List UInt8}
    (hTrimmed : InetAddr.popBackNul left = InetAddr.popBackNul right)
    (hLength : left.length = right.length) : left = right := by
  have hNuls (name : List UInt8) : name = InetAddr.popBackNul name ++
      List.replicate (name.length - (InetAddr.popBackNul name).length) 0 := by
    have hSplit : InetAddr.popBackNul name ++ name.rtakeWhile (· == 0) = name :=
      List.rdropWhile_append_rtakeWhile
    have hTail : name.rtakeWhile (· == 0) =
        List.replicate (name.rtakeWhile (· == 0)).length 0 :=
      List.eq_replicate_of_mem fun char hMem => by
        simpa using List.mem_rtakeWhile_imp hMem
    have hCount := congrArg List.length hSplit
    rw [List.length_append] at hCount
    rw [← hCount, Nat.add_sub_cancel_left, ← hTail, hSplit]
  rw [hNuls left, hNuls right, hTrimmed, hLength]

theorem scopeAgrees_of_family (hFamily : left.family ≠ AF_INET6) :
    left.ScopeAgrees right := fun hBoth => absurd hBoth.1 hFamily

theorem paddingAgrees_of_family (hFamily : left.family ≠ AF_UNIX) :
    left.PaddingAgrees right := fun hBoth => absurd hBoth.1 hFamily

theorem linkLocal_congr (hHost : left.sin6Addr = right.sin6Addr) :
    left.linkLocal = right.linkLocal := by
  unfold linkLocal
  rw [hHost]

/-- Where the denoted addresses are equal but for what `operator==` ignores, they
are equal exactly if the ignored members agree. -/
theorem kernelAddr_eq_iff {leftAddr rightAddr : KernelAddr}
    (hLeft : left.kernelAddr = some leftAddr)
    (hRight : right.kernelAddr = some rightAddr)
    (hSame : leftAddr.trimmed.anyScope = rightAddr.trimmed.anyScope) :
    left.kernelAddr = right.kernelAddr ↔
      left.ScopeAgrees right ∧ left.PaddingAgrees right := by
  rw [hLeft, hRight, Option.some.injEq]
  cases denotes hLeft with
  | ipv4 hFamily =>
      have hAgrees : left.ScopeAgrees right ∧ left.PaddingAgrees right :=
        ⟨scopeAgrees_of_family (by rw [hFamily]; decide),
          paddingAgrees_of_family (by rw [hFamily]; decide)⟩
      cases denotes hRight with
      | ipv4 hOther => exact iff_of_true hSame hAgrees
      | ipv6 hOther => cases hSame
      | abstract hOther hFirst => cases hSame
      | pathname hOther hFirst => cases hSame
  | ipv6 hFamily =>
      have hPadding : left.PaddingAgrees right :=
        paddingAgrees_of_family (by rw [hFamily]; decide)
      cases denotes hRight with
      | ipv4 hOther => cases hSame
      | ipv6 hOther =>
          obtain ⟨hHost, hPort, -⟩ := KernelAddr.ipv6.inj hSame
          rw [hHost, hPort, ← linkLocal_congr hHost]
          simp only [KernelAddr.ipv6.injEq, true_and, hPadding, and_true,
            ScopeAgrees, hFamily]
          cases left.linkLocal <;> simp
      | abstract hOther hFirst => cases hSame
      | pathname hOther hFirst => cases hSame
  | abstract hFamily hFirst =>
      have hScope : left.ScopeAgrees right :=
        scopeAgrees_of_family (by rw [hFamily]; decide)
      cases denotes hRight with
      | ipv4 hOther => cases hSame
      | ipv6 hOther => cases hSame
      | abstract hOther hOtherFirst =>
          have hTrimmed := KernelAddr.abstract.inj hSame
          obtain ⟨name, hName⟩ := List.head?_eq_some_iff.mp hFirst
          obtain ⟨other, hOtherName⟩ := List.head?_eq_some_iff.mp hOtherFirst
          constructor
          · intro hNames
            have hRest := KernelAddr.abstract.inj hNames
            refine ⟨hScope, fun _ => ?_⟩
            rw [hName, hOtherName] at hRest ⊢
            exact congrArg (fun name => name.length + 1) hRest
          · rintro ⟨-, hPadding⟩
            have hLength := hPadding ⟨hFamily, hFirst⟩
            rw [hName, hOtherName] at hLength hTrimmed ⊢
            exact congrArg KernelAddr.abstract
              (eq_of_popBackNul_eq hTrimmed (Nat.succ.inj hLength))
      | pathname hOther hOtherFirst => cases hSame
  | pathname hFamily hFirst =>
      have hAgrees : left.ScopeAgrees right ∧ left.PaddingAgrees right :=
        ⟨scopeAgrees_of_family (by rw [hFamily]; decide),
          fun hBoth => absurd hBoth.2 hFirst⟩
      cases denotes hRight with
      | ipv4 hOther => cases hSame
      | ipv6 hOther => cases hSame
      | abstract hOther hOtherFirst => cases hSame
      | pathname hOther hOtherFirst => exact iff_of_true hSame hAgrees

end Sockaddr

namespace InetAddr

theorem trimmed_trimmed (addr : KernelAddr) :
    addr.trimmed.trimmed = addr.trimmed := by
  cases addr with
  | abstract name =>
      exact congrArg KernelAddr.abstract (List.rdropWhile_idempotent _ name)
  | ipv4 => rfl
  | ipv6 => rfl
  | pathname => rfl

/-- A sender denotes what a decoded address with an equal key denotes exactly if
the ignored members agree. -/
theorem kernelAddr_eq_decoded_iff {opener sender : Sockaddr} {a b : InetAddr}
    (hOpener : makeFromSockaddr (some opener) = some a)
    (hSender : makeFromSockaddr (some sender) = some b) (hEq : a.eq b = true) :
    sender.kernelAddr = a.sockaddr.kernelAddr ↔
      sender.ScopeAgrees a.sockaddr ∧ sender.PaddingAgrees a.sockaddr := by
  obtain ⟨openerAddr, senderAddr, -, hKept, hSenderAddr, hSame⟩ :=
    anyScope_of_eq hOpener hSender hEq
  refine Sockaddr.kernelAddr_eq_iff hSenderAddr hKept ?_
  rw [trimmed_trimmed, hSame]

/-- A decoded address of a family other than `AF_UNIX` denotes what its input
does. -/
theorem kernelAddr_decoded {sender : Sockaddr} {a : InetAddr}
    (hSender : makeFromSockaddr (some sender) = some a)
    (hFamily : sender.family ≠ AF_UNIX) :
    sender.kernelAddr = a.sockaddr.kernelAddr := by
  obtain ⟨senderAddr, hAddr, hKept⟩ := (decoded hSender).kernelAddr
  rw [hAddr, hKept]
  cases Sockaddr.denotes hAddr with
  | ipv4 => rfl
  | ipv6 => rfl
  | abstract hUnix => exact absurd hUnix hFamily
  | pathname => rfl

end InetAddr

/-- Where `post_send_task` of a session sends to. -/
def UdpSession.destination (session : UdpSession) : Sockaddr :=
  session.source.sockaddr

/-- The source of a datagram. -/
def UdpEvent.source? : UdpEvent → Option InetAddr
  | received source _ _ => some source
  | erased _ => none

namespace UdpServer

variable {std : StdHash} {bucketOf : List UdpEvent → UInt64 → Nat}
  {s next : UdpServer}

/-- A reply to a call goes to the sender of its data, and all calls with one
session have one sender. -/
def RepliesToSender (s : UdpServer) : Prop :=
  ∀ made ∈ s.calls, made.sender.kernelAddr = made.session.destination.kernelAddr ∧
    ∀ other ∈ s.calls, other.session.id = made.session.id →
      other.sender.kernelAddr = made.sender.kernelAddr

instance (s : UdpServer) : Decidable s.RepliesToSender :=
  inferInstanceAs (Decidable (∀ made ∈ s.calls, _ ∧ _))

/-- A datagram that joins a session has the scope id of the one that opened it. -/
def SameScope (s : UdpServer) : UdpAction → Prop
  | .receive sender _ _ =>
      s.readCb = true →
        ∀ entry ∈ (InetAddr.makeFromSockaddr (some sender)).bind s.lookup,
          sender.ScopeAgrees entry.2.destination
  | _ => True

instance (s : UdpServer) : (action : UdpAction) → Decidable (s.SameScope action)
  | .receive _ _ _ => inferInstanceAs (Decidable (_ → _))
  | .setNewSessionCb _ => .isTrue trivial
  | .setReadCb _ => .isTrue trivial
  | .scan _ => .isTrue trivial
  | .postHeavyTask => .isTrue trivial
  | .swapHeavy => .isTrue trivial
  | .executeHeavy => .isTrue trivial
  | .clearHeavy => .isTrue trivial

/-! ## The invariant -/

/-- The sources of the datagrams. -/
def sources (s : UdpServer) : List InetAddr := s.history.filterMap UdpEvent.source?

/-- A session has the source of the datagram it is numbered by. -/
structure Sourced (s : UdpServer) : Prop where
  table : s.TableOk
  family : s.family = AF_INET ∨ s.family = AF_INET6
  decoded : ∀ source ∈ s.sources, ∃ opener,
    InetAddr.makeFromSockaddr (some opener) = some source
  entries : ∀ entry ∈ s.sessions, s.sources[entry.2.id]? = some entry.2.source
  calls : ∀ made ∈ s.calls, s.sources[made.session.id]? = some made.session.source

theorem sources_record (s : UdpServer) (event : UdpEvent) :
    (s.record event).sources = s.sources ++ event.source?.toList := by
  rw [sources, record, List.filterMap_append]
  cases event <;> rfl

theorem length_sources (s : UdpServer) : s.sources.length = s.received := by
  rw [sources, received]
  induction s.history with
  | nil => rfl
  | cons event history ih =>
      cases event with
      | received source data time =>
          have hHead : UdpEvent.source? (.received source data time) =
              some source := rfl
          rw [List.filterMap_cons_some hHead, List.length_cons, ih,
            List.countP_cons_of_pos rfl]
      | erased gone =>
          have hHead : UdpEvent.source? (.erased gone) = none := rfl
          rw [List.filterMap_cons_none hHead, ih,
            List.countP_cons_of_neg (by simp [UdpEvent.isReceived])]

theorem Sourced.unix_free (hSourced : s.Sourced) : s.family ≠ AF_UNIX := by
  rcases hSourced.family with hFamily | hFamily <;> rw [hFamily] <;> decide

/-- Calls with one session have one destination. -/
theorem Sourced.repliesToSender_iff (hSourced : s.Sourced) :
    s.RepliesToSender ↔ ∀ made ∈ s.calls,
      made.sender.kernelAddr = made.session.destination.kernelAddr := by
  refine ⟨fun hReplies made hMem => (hReplies made hMem).1, ?_⟩
  intro hEach made hMem
  refine ⟨hEach made hMem, fun other hOther hId => ?_⟩
  have hMade := hSourced.calls made hMem
  have hSame := hSourced.calls other hOther
  rw [hId, hMade] at hSame
  rw [hEach other hOther, hEach made hMem, UdpSession.destination,
    UdpSession.destination, Option.some.inj hSame]

theorem sourced_make {family : UInt16} {timeout : UInt64} {made : UdpServer}
    (hMake : make family timeout = some made) : made.Sourced := by
  have hTable : made.TableOk := tableOk_make hMake
  obtain ⟨hFamily, rfl⟩ := make_eq_some hMake
  exact
    { table := hTable
      family := hFamily
      decoded := fun _ hMem => by cases hMem
      entries := fun _ hMem => by cases hMem
      calls := fun _ hMem => by cases hMem }

theorem calls_make {family : UInt16} {timeout : UInt64} {made : UdpServer}
    (hMake : make family timeout = some made) : made.calls = [] := by
  obtain ⟨-, rfl⟩ := make_eq_some hMake
  rfl

section Datagram

variable {sender : Sockaddr} {source : InetAddr} {data : List UInt8} {now : Nat}

/-- The sessions and calls have the sources of their datagrams after one more. -/
theorem Sourced.read (hSourced : s.Sourced)
    (hRead : Read s sender source data now next) :
    (∀ entry ∈ next.sessions,
      (s.sources ++ [source])[entry.2.id]? = some entry.2.source) ∧
    ∀ made ∈ next.calls,
      (s.sources ++ [source])[made.session.id]? = some made.session.source := by
  have hGrow {id : Nat} {old : InetAddr} (hOld : s.sources[id]? = some old) :
      (s.sources ++ [source])[id]? = some old := by
    obtain ⟨hLess, -⟩ := List.getElem?_eq_some_iff.mp hOld
    rw [List.getElem?_append_left hLess, hOld]
  have hEntries (entry : InetAddr × UdpSession) (hMem : entry ∈ s.sessions) :
      (s.sources ++ [source])[entry.2.id]? = some entry.2.source :=
    hGrow (hSourced.entries entry hMem)
  have hCalls (made : UdpCall) (hMem : made ∈ s.calls) :
      (s.sources ++ [source])[made.session.id]? = some made.session.source :=
    hGrow (hSourced.calls made hMem)
  cases hRead with
  | ignored => exact ⟨hEntries, hCalls⟩
  | opened hNone =>
      have hNew : (s.sources ++ [source])[s.received]? = some source := by
        rw [← length_sources, List.getElem?_concat_length]
      refine ⟨fun entry hMem => ?_, forall_calls_post.mpr ⟨hCalls, hNew⟩⟩
      rcases List.mem_append.mp hMem with hOld | hAdded
      · exact hEntries entry hOld
      · obtain rfl := List.mem_singleton.mp hAdded
        exact hNew
  | @continued key session hFound =>
      have hSession := hEntries _ (HashTable.mem_of_lookup hFound).1
      refine ⟨fun entry hMem => ?_, forall_calls_post.mpr ⟨hCalls, hSession⟩⟩
      obtain ⟨old, hOld, rfl⟩ := List.mem_map.mp hMem
      rw [UdpSession.stamp_id, UdpSession.stamp_source]
      exact hEntries old hOld

/-- The call for a datagram is answered to its sender exactly if the scope ids
agree. -/
theorem Sourced.replies_read (hSourced : s.Sourced)
    (hSource : InetAddr.makeFromSockaddr (some sender) = some source)
    (hFamily : sender.family = s.family)
    (hReplies : ∀ made ∈ s.calls,
      made.sender.kernelAddr = made.session.destination.kernelAddr)
    (hRead : Read s sender source data now next) :
    (s.readCb = true → ∀ entry, s.lookup source = some entry →
        sender.ScopeAgrees entry.2.destination) ↔
      ∀ made ∈ next.calls,
        made.sender.kernelAddr = made.session.destination.kernelAddr := by
  have hNotUnix : sender.family ≠ AF_UNIX := hFamily ▸ hSourced.unix_free
  cases hRead with
  | ignored hReadCb =>
      refine iff_of_true (fun hSet => ?_) hReplies
      rw [hReadCb] at hSet
      cases hSet
  | opened hNone =>
      have hScope (entry : InetAddr × UdpSession)
          (hFound : s.lookup source = some entry) :
          sender.ScopeAgrees entry.2.destination := by
        rw [hNone] at hFound
        cases hFound
      refine iff_of_true (fun _ => hScope) (forall_calls_post.mpr ⟨hReplies, ?_⟩)
      exact InetAddr.kernelAddr_decoded hSource hNotUnix
  | @continued key session hFound hReadCb =>
      obtain ⟨hMem, hEq⟩ := HashTable.mem_of_lookup hFound
      have hKey : session.source = key := hSourced.table.source_eq _ hMem
      have hDecoded := hSourced.decoded session.source
        (List.mem_of_getElem? (hSourced.entries _ hMem))
      obtain ⟨opener, hOpener⟩ := hDecoded
      have hAnswer := InetAddr.kernelAddr_eq_decoded_iff hOpener hSource
        (hKey ▸ hEq)
      rw [and_iff_left (Sockaddr.paddingAgrees_of_family hNotUnix)] at hAnswer
      rw [forall_calls_post]
      constructor
      · intro hScope
        exact ⟨hReplies, hAnswer.mpr (hScope hReadCb _ hFound)⟩
      · rintro ⟨-, hNew⟩ _ entry hEntry
        obtain rfl := Option.some.inj (hFound.symm.trans hEntry)
        exact hAnswer.mp hNew

end Datagram

theorem Sourced.step {action : UdpAction} (hSourced : s.Sourced)
    (hStep : Stepped s action next) : next.Sourced := by
  have hTable := hSourced.table.step hStep
  cases hStep with
  | @receive sender source data now next hSource hFamily hClock hRead =>
      have hClocked : ({ s with clock := now } : UdpServer).Sourced :=
        { hSourced with }
      obtain ⟨hEntries, hCalls⟩ := hClocked.read hRead
      have hSources : (next.record (.received source data now)).sources =
          s.sources ++ [source] := by
        rw [sources_record, sources, hRead.history_eq]
        rfl
      have hKept : next.family = s.family := by cases hRead <;> rfl
      exact
        { table := hTable
          family := hKept ▸ hSourced.family
          decoded := by
            rw [hSources]
            intro other hMem
            rcases List.mem_append.mp hMem with hOld | hNew
            · exact hSourced.decoded other hOld
            · obtain rfl := List.mem_singleton.mp hNew
              exact ⟨sender, hSource⟩
          entries := by
            rw [hSources]
            exact hEntries
          calls := by
            rw [hSources]
            exact hCalls }
  | @scan now hClock =>
      have hSources : ((({ s with clock := now } : UdpServer).scan now).record
          (.erased (s.gone now))).sources = s.sources := by
        rw [sources_record]
        exact List.append_nil _
      exact
        { table := hTable
          family := hSourced.family
          decoded := by
            rw [hSources]
            exact hSourced.decoded
          entries := by
            rw [hSources]
            exact fun entry hMem =>
              hSourced.entries entry (List.mem_of_mem_filter hMem)
          calls := by
            rw [hSources]
            exact hSourced.calls }
  | postHeavyTask =>
      exact
        { hSourced with
          calls := by
            rw [calls_post_user]
            exact hSourced.calls }
  | executeHeavy hNext =>
      exact
        { hSourced with
          calls := by
            rw [UdpServer.calls, DoubleBuffer.execute_pushed hNext]
            exact hSourced.calls }
  | setNewSessionCb => exact { hSourced with }
  | setReadCb => exact { hSourced with }
  | swapHeavy => exact { hSourced with }
  | clearHeavy => exact { hSourced with }

/-- Any other step than a datagram posts no call. -/
theorem calls_eq_of_stepped {action : UdpAction} (hStep : Stepped s action next)
    (hOther : ∀ sender data now, action ≠ .receive sender data now) :
    next.calls = s.calls := by
  cases hStep with
  | receive => exact absurd rfl (hOther _ _ _)
  | postHeavyTask => exact calls_post_user s
  | executeHeavy hNext =>
      show List.filterMap _ _ = _
      rw [DoubleBuffer.execute_pushed hNext]
      rfl
  | setNewSessionCb => rfl
  | setReadCb => rfl
  | scan => rfl
  | swapHeavy => rfl
  | clearHeavy => rfl

/-- A step keeps replies going to their senders exactly if the scope ids agree. -/
theorem Sourced.replies_step {action : UdpAction} (hSourced : s.Sourced)
    (hReplies : s.RepliesToSender) (hStep : Stepped s action next) :
    s.SameScope action ↔ next.RepliesToSender := by
  have hEach := hSourced.repliesToSender_iff.mp hReplies
  rw [(hSourced.step hStep).repliesToSender_iff]
  by_cases hReceive : ∃ sender data now, action = .receive sender data now
  · obtain ⟨sender, data, now, rfl⟩ := hReceive
    cases hStep with
    | receive hSource hFamily hClock hRead =>
        have hClocked : ({ s with clock := now } : UdpServer).Sourced :=
          { hSourced with }
        have hCalls := hClocked.replies_read hSource hFamily hEach hRead
        simp only [SameScope, hSource, Option.bind_some]
        exact hCalls
  · have hOther (sender : Sockaddr) (data : List UInt8) (now : Nat) :
        action ≠ .receive sender data now :=
      fun hIt => hReceive ⟨sender, data, now, hIt⟩
    rw [calls_eq_of_stepped hStep hOther]
    refine iff_of_true ?_ hEach
    cases action with
    | receive sender data now => exact absurd rfl (hOther sender data now)
    | _ => trivial

/-- **Replies go to the sender.**  Of two accepted addresses that are equal for
`operator==`, the kernel sees one peer exactly if their scope ids agree where
they count, and abstract names are equally long.  In every run of a UDP server,
whatever callbacks are set, replies go to the senders in every state reached
exactly if no datagram joins a session of a link-local peer with another scope
id. -/
theorem replies_to_sender_iff (std : StdHash)
    (bucketOf : List UdpEvent → UInt64 → Nat) :
    (∀ left right a b, InetAddr.makeFromSockaddr (some left) = some a →
      InetAddr.makeFromSockaddr (some right) = some b → a.eq b = true →
      (left.kernelAddr = right.kernelAddr ↔
        left.ScopeAgrees right ∧ left.PaddingAgrees right)) ∧
    ∀ family timeout made actions final, make family timeout = some made →
      run (UdpServer.step std bucketOf) made actions = some final →
      (Guarded (UdpServer.step std bucketOf) SameScope made actions ↔
        ∀ earlier later reached, actions = earlier ++ later →
          run (UdpServer.step std bucketOf) made earlier = some reached →
          reached.RepliesToSender) := by
  constructor
  · intro left right a b hLeft hRight hEq
    obtain ⟨leftAddr, rightAddr, hLeftAddr, -, hRightAddr, hSame⟩ :=
      InetAddr.anyScope_of_eq hLeft hRight hEq
    exact Sockaddr.kernelAddr_eq_iff hLeftAddr hRightAddr hSame
  · intro family timeout made actions final hMake hRun
    let Inv (s : UdpServer) : Prop := s.Sourced ∧ s.RepliesToSender
    have hStep (s : UdpServer) (action : UdpAction) (next : UdpServer)
        (hInv : Inv s) (hStep : UdpServer.step std bucketOf s action = some next) :
        s.SameScope action ↔ Inv next := by
      have hSourced := hInv.1.step (stepped hStep)
      exact (hInv.1.replies_step hInv.2 (stepped hStep)).trans
        (and_iff_right hSourced).symm
    have hInit : Inv made := by
      refine ⟨sourced_make hMake, fun call hMem => ?_⟩
      rw [calls_make hMake] at hMem
      cases hMem
    rw [guarded_iff_forall_states hStep hInit hRun]
    constructor
    · intro hStates earlier later reached hSplit hReached
      exact (hStates earlier later reached hSplit hReached).2
    · intro hStates earlier later reached hSplit hReached
      have hSourced : reached.Sourced :=
        run_keeps (fun _ _ _ hBefore hNext => hBefore.step (stepped hNext))
          hInit.1 hReached
      exact ⟨hSourced, hStates earlier later reached hSplit hReached⟩

/-- A sender `fe80::1`, on the link `scopeId`. -/
def linkLocalSender (scopeId : UInt8) : Sockaddr where
  bytes := bytes16 AF_INET6 ++ [0, 9, 0, 0, 0, 0] ++ [0xfe, 0x80] ++
    List.replicate 13 0 ++ [1] ++ [scopeId, 0, 0, 0]
  len := 28
  len_le := by simp [length_bytes16]

/-- Two datagrams from one link go to one session, and replies to their sender. -/
theorem replies_to_sender_iff_one_link :
    let std : StdHash := ⟨UInt16.toUInt64, UInt32.toUInt64, fun _ => 0⟩
    let actions : List UdpAction :=
      [.setReadCb true, .receive (linkLocalSender 2) [1] 0,
        .receive (linkLocalSender 2) [2] 1]
    ∃ made final, make AF_INET6 60000 = some made ∧
      run (UdpServer.step std fun _ _ => 0) made actions = some final ∧
      final.calls.map (fun made => made.session.id) = [0, 0] ∧
      final.RepliesToSender := by
  intro std actions
  have hOutcome : (make AF_INET6 60000).any (fun made =>
      decide (Guarded (UdpServer.step std fun _ _ => 0) SameScope made actions) &&
      (run (UdpServer.step std fun _ _ => 0) made actions).any fun final =>
        final.calls.map (fun made => made.session.id) == [0, 0]) = true := by
    decide +kernel
  obtain ⟨made, hMake, hMade⟩ := (Option.any_eq_true _ _).mp hOutcome
  obtain ⟨hScope, hAny⟩ := Bool.and_eq_true_iff.mp hMade
  obtain ⟨final, hRun, hCalls⟩ := (Option.any_eq_true _ _).mp hAny
  have hStates := ((replies_to_sender_iff std fun _ _ => 0).2 AF_INET6 60000 made
    actions final hMake hRun).mp (of_decide_eq_true hScope)
  exact ⟨made, final, hMake, hRun, eq_of_beq hCalls,
    hStates actions [] final (List.append_nil _).symm hRun⟩

/-- Two datagrams from link-local peers with the same address and port on two
links go to one session; the replies to both go to the first. -/
theorem replies_to_other_link :
    ∃ made final, make AF_INET6 60000 = some made ∧
      run (UdpServer.step ⟨UInt16.toUInt64, UInt32.toUInt64, fun _ => 0⟩
        fun _ _ => 0) made
        [.setReadCb true, .receive (linkLocalSender 2) [1] 0,
          .receive (linkLocalSender 3) [2] 1] = some final ∧
      ¬ final.RepliesToSender := by
  have hOutcome : (make AF_INET6 60000).any (fun made =>
      (run (UdpServer.step ⟨UInt16.toUInt64, UInt32.toUInt64, fun _ => 0⟩
        fun _ _ => 0) made
        [.setReadCb true, .receive (linkLocalSender 2) [1] 0,
          .receive (linkLocalSender 3) [2] 1]).any
        fun final => decide (¬ final.RepliesToSender)) = true := by
    decide +kernel
  obtain ⟨made, hMake, hMade⟩ := (Option.any_eq_true _ _).mp hOutcome
  obtain ⟨final, hRun, hView⟩ := (Option.any_eq_true _ _).mp hMade
  exact ⟨made, final, hMake, hRun, of_decide_eq_true hView⟩

end UdpServer
end Net
end KZEvent

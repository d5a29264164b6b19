import KZEvent.Foundation.Flags

/-!
# Event types, event modes, and their translation to epoll

`EventType` and `EventMode` are enumerations over `uint32_t` used as flag sets.
The loop translates them to the bits of `epoll_ctl` when it registers interest
and translates the bits of `epoll_wait` back when it calls a callback.
-/

namespace KZEvent
namespace Core

open Foundation

/-- `enum class EventType : uint32_t`. -/
abbrev EventType := BitVec 32

namespace EventType

def kDefault : EventType := 0#32
def kRead : EventType := BitVec.twoPow 32 0
def kWrite : EventType := BitVec.twoPow 32 1
def kError : EventType := BitVec.twoPow 32 2
def kShutdown : EventType := BitVec.twoPow 32 3

end EventType

/-- `enum class EventMode : uint32_t`; edge triggering is forced. -/
abbrev EventMode := BitVec 32

namespace EventMode

def kDefault : EventMode := 0#32
def kOneShot : EventMode := BitVec.twoPow 32 0

end EventMode

open EventType

/-! ## The interest mask as the sockets change it -/

@[simp]
theorem hasFlag_or_kWrite (types : EventType) :
    hasFlag (types ||| kWrite) kWrite = true :=
  hasFlag_or_self types (by decide)

@[simp]
theorem hasFlag_kRead_or_kWrite (types : EventType) :
    hasFlag (types ||| kWrite) kRead = hasFlag types kRead :=
  hasFlag_or_of_ne types (by decide) (by decide)

@[simp]
theorem hasFlag_kError_or_kWrite (types : EventType) :
    hasFlag (types ||| kWrite) kError = hasFlag types kError :=
  hasFlag_or_of_ne types (by decide) (by decide)

@[simp]
theorem hasFlag_kRead_andNot_kWrite (types : EventType) :
    hasFlag (types &&& ~~~kWrite) kRead = hasFlag types kRead :=
  hasFlag_andNot_of_ne types (by decide) (by decide)

@[simp]
theorem hasFlag_kError_andNot_kWrite (types : EventType) :
    hasFlag (types &&& ~~~kWrite) kError = hasFlag types kError :=
  hasFlag_andNot_of_ne types (by decide) (by decide)

/-! ## Translation -/

/-- The event bits of `epoll_ctl` and `epoll_wait`. -/
abbrev EpollEvents := BitVec 32

def EPOLLIN : EpollEvents := BitVec.twoPow 32 0
def EPOLLOUT : EpollEvents := BitVec.twoPow 32 2
def EPOLLERR : EpollEvents := BitVec.twoPow 32 3
def EPOLLRDHUP : EpollEvents := BitVec.twoPow 32 13
def EPOLLONESHOT : EpollEvents := BitVec.twoPow 32 30
def EPOLLET : EpollEvents := BitVec.twoPow 32 31

def kEventTypeToEpoll : List (EventType × EpollEvents) :=
  [(kRead, EPOLLIN), (kWrite, EPOLLOUT), (kError, EPOLLERR),
    (kShutdown, EPOLLRDHUP)]

def kEventModeToEpoll : List (EventMode × EpollEvents) :=
  [(EventMode.kOneShot, EPOLLONESHOT)]

/-- `kz_to_local(EventType)`. -/
def kzToLocalTypes (events : EventType) : EpollEvents :=
  translate kEventTypeToEpoll 0 events

/-- `kz_to_local(EventMode)`: starts from `EPOLLET`. -/
def kzToLocalModes (modes : EventMode) : EpollEvents :=
  translate kEventModeToEpoll EPOLLET modes

/-- `local_to_kz`: the same table, read from the epoll side. -/
def localToKz (localEvents : EpollEvents) : EventType :=
  translate (kEventTypeToEpoll.map Prod.swap) EventType.kDefault localEvents

/-- The `events` field `enable_fd` hands to `epoll_ctl`. -/
def epollInterest (types : EventType) (modes : EventMode) : EpollEvents :=
  kzToLocalTypes types ||| kzToLocalModes modes

/-- A bit of the translated types. -/
theorem getLsbD_kzToLocalTypes (types : EventType) (index : Nat) :
    (kzToLocalTypes types).getLsbD index =
      (types.getLsbD 0 && EPOLLIN.getLsbD index ||
        (types.getLsbD 1 && EPOLLOUT.getLsbD index ||
          (types.getLsbD 2 && EPOLLERR.getLsbD index ||
            types.getLsbD 3 && EPOLLRDHUP.getLsbD index))) := by
  rw [kzToLocalTypes, getLsbD_translate]
  simp only [kEventTypeToEpoll, kRead, kWrite, kError, kShutdown,
    List.any_cons, List.any_nil, Bool.or_false]
  rw [and_twoPow_bne_zero _ (by decide), and_twoPow_bne_zero _ (by decide),
    and_twoPow_bne_zero _ (by decide), and_twoPow_bne_zero _ (by decide)]
  simp

/-- What the kernel reports of an interest comes back as the types that asked
for it. -/
theorem localToKz_kzToLocalTypes (types : EventType) :
    localToKz (kzToLocalTypes types) =
      types &&& (kRead ||| kWrite ||| kError ||| kShutdown) := by
  apply BitVec.eq_of_getLsbD_eq
  intro index hIndex
  rw [localToKz, getLsbD_translate]
  simp only [kEventTypeToEpoll, List.map_cons, List.map_nil, Prod.swap_prod_mk,
    List.any_cons, List.any_nil, Bool.or_false, EPOLLIN, EPOLLOUT, EPOLLERR,
    EPOLLRDHUP]
  rw [and_twoPow_bne_zero _ (by decide), and_twoPow_bne_zero _ (by decide),
    and_twoPow_bne_zero _ (by decide), and_twoPow_bne_zero _ (by decide)]
  simp only [getLsbD_kzToLocalTypes]
  simp [EPOLLIN, EPOLLOUT, EPOLLERR, EPOLLRDHUP, kRead, kWrite, kError,
    kShutdown, EventType.kDefault, BitVec.getLsbD_twoPow]
  -- the four bits the table knows, and the others
  rcases index with _ | _ | _ | _ | index <;> simp [BitVec.getLsbD_eq_getElem]

/-- A bit of the interest of a channel. -/
theorem getLsbD_epollInterest (types : EventType) (modes : EventMode)
    (index : Nat) :
    (epollInterest types modes).getLsbD index =
      ((types.getLsbD 0 && EPOLLIN.getLsbD index ||
          (types.getLsbD 1 && EPOLLOUT.getLsbD index ||
            (types.getLsbD 2 && EPOLLERR.getLsbD index ||
              types.getLsbD 3 && EPOLLRDHUP.getLsbD index))) ||
        (EPOLLET.getLsbD index ||
          modes.getLsbD 0 && EPOLLONESHOT.getLsbD index)) := by
  rw [epollInterest, BitVec.getLsbD_or, getLsbD_kzToLocalTypes,
    kzToLocalModes, getLsbD_translate]
  simp only [kEventModeToEpoll, EventMode.kOneShot, List.any_cons,
    List.any_nil, Bool.or_false]
  rw [and_twoPow_bne_zero _ (by decide)]

/-- A bit of the types a reported event is translated to. -/
theorem getLsbD_localToKz (localEvents : EpollEvents) (index : Nat) :
    (localToKz localEvents).getLsbD index =
      (localEvents.getLsbD 0 && kRead.getLsbD index ||
        (localEvents.getLsbD 2 && kWrite.getLsbD index ||
          (localEvents.getLsbD 3 && kError.getLsbD index ||
            localEvents.getLsbD 13 && kShutdown.getLsbD index))) := by
  rw [localToKz, getLsbD_translate]
  simp only [kEventTypeToEpoll, List.map_cons, List.map_nil, Prod.swap_prod_mk,
    List.any_cons, List.any_nil, Bool.or_false, EPOLLIN, EPOLLOUT, EPOLLERR,
    EPOLLRDHUP]
  rw [and_twoPow_bne_zero _ (by decide), and_twoPow_bne_zero _ (by decide),
    and_twoPow_bne_zero _ (by decide), and_twoPow_bne_zero _ (by decide)]
  simp [EventType.kDefault]

/-- A callback is told to read exactly when `EPOLLIN` was reported. -/
theorem hasFlag_localToKz_kRead (localEvents : EpollEvents) :
    hasFlag (localToKz localEvents) kRead = hasFlag localEvents EPOLLIN := by
  rw [EPOLLIN, kRead, hasFlag_twoPow _ (by decide), hasFlag_twoPow _ (by decide),
    getLsbD_localToKz]
  simp [kRead, kWrite, kError, kShutdown]

/-- A callback is told to write exactly when `EPOLLOUT` was reported. -/
theorem hasFlag_localToKz_kWrite (localEvents : EpollEvents) :
    hasFlag (localToKz localEvents) kWrite = hasFlag localEvents EPOLLOUT := by
  rw [EPOLLOUT, kWrite, hasFlag_twoPow _ (by decide), hasFlag_twoPow _ (by decide),
    getLsbD_localToKz]
  simp [kRead, kWrite, kError, kShutdown]

/-- The kernel is asked for `EPOLLIN` exactly when the types contain `kRead`. -/
theorem hasFlag_EPOLLIN (types : EventType) (modes : EventMode) :
    hasFlag (epollInterest types modes) EPOLLIN = hasFlag types kRead := by
  rw [EPOLLIN, kRead, hasFlag_twoPow _ (by decide), hasFlag_twoPow _ (by decide),
    getLsbD_epollInterest]
  simp [EPOLLIN, EPOLLOUT, EPOLLERR, EPOLLRDHUP, EPOLLONESHOT,
    EPOLLET]

/-- The kernel is asked for `EPOLLOUT` exactly when the types contain `kWrite`. -/
theorem hasFlag_EPOLLOUT (types : EventType) (modes : EventMode) :
    hasFlag (epollInterest types modes) EPOLLOUT = hasFlag types kWrite := by
  rw [EPOLLOUT, kWrite, hasFlag_twoPow _ (by decide), hasFlag_twoPow _ (by decide),
    getLsbD_epollInterest]
  simp [EPOLLIN, EPOLLOUT, EPOLLERR, EPOLLRDHUP, EPOLLONESHOT,
    EPOLLET]

/-- The kernel is asked for `EPOLLERR` exactly when the types contain `kError`. -/
theorem hasFlag_EPOLLERR (types : EventType) (modes : EventMode) :
    hasFlag (epollInterest types modes) EPOLLERR = hasFlag types kError := by
  rw [EPOLLERR, kError, hasFlag_twoPow _ (by decide), hasFlag_twoPow _ (by decide),
    getLsbD_epollInterest]
  simp [EPOLLIN, EPOLLOUT, EPOLLERR, EPOLLRDHUP, EPOLLONESHOT,
    EPOLLET]

end Core
end KZEvent

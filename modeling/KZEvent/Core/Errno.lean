import Mathlib.Data.Int.Notation

/-!
# Error numbers

The values of `errno` and `SO_ERROR` that the source tests for.  Every other
value is possible too, so an error number is any integer.
-/

namespace KZEvent
namespace Core

/-- A value of `errno` or `SO_ERROR`. -/
abbrev Errno := Int

def ENOENT : Errno := 2
def EAGAIN : Errno := 11
def EEXIST : Errno := 17
def EPIPE : Errno := 32
def ECONNABORTED : Errno := 103
def ECONNRESET : Errno := 104
def ETIMEDOUT : Errno := 110
def ECONNREFUSED : Errno := 111
def EINPROGRESS : Errno := 115

end Core
end KZEvent

import Mathlib.Data.Int.Notation

/-! The error codes of the kernel (`kerrno.h`). Every build has a C library, and the codes are then the
numbers of its `errno.h`, apart from `RT_ERROR`. -/

namespace SwmLvgl

/-- The numbers in the `errno.h` of the C library. They differ between the toolchains; all are positive. -/
class Errno where
  einval : Int
  eio : Int
  etimedout : Int
  einval_pos : 0 < einval
  eio_pos : 0 < eio
  etimedout_pos : 0 < etimedout

/-- The ARM library, with what `sys/errno.h` adds to it above `ERROR_BASE_NO`. -/
@[reducible] def Errno.armlibc : Errno where
  einval := 5
  eio := 7 + 5
  etimedout := 7 + 110
  einval_pos := by decide
  eio_pos := by decide
  etimedout_pos := by decide

/-- `RT_ERROR` -/
def rtError : Int := 255

section Codes

variable [Errno]

/-- `RT_EINVAL` -/
def rtEinval : Int := Errno.einval

/-- `RT_EIO` -/
def rtEio : Int := Errno.eio

/-- `RT_ETIMEOUT` -/
def rtEtimeout : Int := Errno.etimedout

theorem rtEinval_pos : 0 < rtEinval := Errno.einval_pos

theorem rtEio_pos : 0 < rtEio := Errno.eio_pos

theorem rtEtimeout_pos : 0 < rtEtimeout := Errno.etimedout_pos

theorem neg_rtEio_ne_zero : -rtEio ≠ 0 := Int.neg_ne_zero.mpr (Int.ne_of_gt rtEio_pos)

theorem neg_rtEtimeout_ne_zero : -rtEtimeout ≠ 0 := Int.neg_ne_zero.mpr (Int.ne_of_gt rtEtimeout_pos)

end Codes

end SwmLvgl

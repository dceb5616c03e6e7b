/-! # Error numbers

The values of `arch/arm32/include/arch/errno.h`; `include/errno.h` gives the
same numbers to the same names.
-/

namespace OpenXJ380.Errno

def EOK : Int := 0
def EPERM : Int := 1
def ENOENT : Int := 2
def ESRCH : Int := 3
def Eio : Int := 5
def ENOEXEC : Int := 8
def EBADF : Int := 9
def ENOMEM : Int := 12
def EFAULT : Int := 14
def EBUSY : Int := 16
def EEXIST : Int := 17
def ENODEV : Int := 19
def ENOTDIR : Int := 20
def EINVAL : Int := 22
def EPIPE : Int := 32
def EDEADLK : Int := 35
def ENAMETOOLONG : Int := 36
def ENOTEMPTY : Int := 39
def EOPNOTSUPP : Int := 95
def EAFNOSUPPORT : Int := 97
def EADDRINUSE : Int := 98
def ENOTCONN : Int := 107
def ECONNREFUSED : Int := 111

end OpenXJ380.Errno

/-!
Windows error codes and the error numbers they are reported as.

A failing Windows call leaves a code behind that `GetLastError` reads; a
system call that fails rebuilds its own reply from it. The codes below are the
ones the translation distinguishes. Every code has a number, because a code
the table does not know is reported as `ecanceled`; what matters to a caller
is that two codes, success and the end of an enumeration, have the number
zero, so that a failure that left either of them behind looks like a success.
-/

namespace MinC.Win

/-- The answer of a Windows call that may fail, with the code it then leaves. -/
inductive Answer
  | ok
  | fail (error : UInt32)
  deriving DecidableEq

/-! ### Codes -/

def errorSuccess : UInt32 := 0
def errorInvalidFunction : UInt32 := 1
def errorFileNotFound : UInt32 := 2
def errorPathNotFound : UInt32 := 3
def errorTooManyOpenFiles : UInt32 := 4
def errorAccessDenied : UInt32 := 5
def errorInvalidHandle : UInt32 := 6
def errorNotEnoughMemory : UInt32 := 8
def errorNotSameDevice : UInt32 := 17
def errorNoMoreFiles : UInt32 := 18
def errorNotReady : UInt32 := 21
def errorGenFailure : UInt32 := 31
def errorSharingViolation : UInt32 := 32
def errorLockViolation : UInt32 := 33
def errorHandleEof : UInt32 := 38
def errorNotSupported : UInt32 := 50
def errorBadNetpath : UInt32 := 53
def errorUnexpNetErr : UInt32 := 59
def errorNetnameDeleted : UInt32 := 64
def errorFileExists : UInt32 := 80
def errorInvalidParameter : UInt32 := 87
def errorBrokenPipe : UInt32 := 109
def errorBufferOverflow : UInt32 := 111
def errorInsufficientBuffer : UInt32 := 122
def errorInvalidName : UInt32 := 123
def errorModNotFound : UInt32 := 126
def errorProcNotFound : UInt32 := 127
def errorWaitNoChildren : UInt32 := 128
def errorDirNotEmpty : UInt32 := 145
def errorPathBusy : UInt32 := 148
def errorNotLocked : UInt32 := 158
def errorBadArguments : UInt32 := 160
def errorBadPathname : UInt32 := 161
def errorSignalPending : UInt32 := 162
def errorAlreadyExists : UInt32 := 183
def errorBadExeFormat : UInt32 := 193
def errorFilenameExcedRange : UInt32 := 206
def errorBadFileType : UInt32 := 222
def errorBadPipe : UInt32 := 230
def errorPipeBusy : UInt32 := 231
def errorNoData : UInt32 := 232
def errorPipeNotConnected : UInt32 := 233
def errorMoreData : UInt32 := 234
def errorNoMoreItems : UInt32 := 259
def errorDirectory : UInt32 := 267
def errorInvalidAddress : UInt32 := 487
def errorPipeConnected : UInt32 := 535
def errorPipeListening : UInt32 := 536
def errorElevationRequired : UInt32 := 740
def errorOperationAborted : UInt32 := 995
def errorIoPending : UInt32 := 997
def errorNoaccess : UInt32 := 998
def errorUnrecognizedVolume : UInt32 := 1005
def errorDeviceNotPartitioned : UInt32 := 1107
def errorIoDevice : UInt32 := 1117
def errorTooManyLinks : UInt32 := 1142
def errorBadDevice : UInt32 := 1200
def errorConnectionAborted : UInt32 := 1236
def errorParameterQuotaExceeded : UInt32 := 1283
def errorNotAllAssigned : UInt32 := 1300
def errorInvalidPrimaryGroup : UInt32 := 1308
def errorPrivilegeNotHeld : UInt32 := 1314
def errorNoneMapped : UInt32 := 1332
def errorLogonSessionExists : UInt32 := 1363
def errorNoSuchAlias : UInt32 := 1376
def errorInvalidThreadId : UInt32 := 1444
def errorInvalidUserBuffer : UInt32 := 1784
def errorInvalidOperation : UInt32 := 4317
def errorDeviceNotAvailable : UInt32 := 4319
def errorCtxNotConsole : UInt32 := 7038
def errorSqlAccessDenied : UInt32 := 15105
def nerrGroupNotFound : UInt32 := 2220
def nerrUserNotFound : UInt32 := 2221
def nteBadKeyset : UInt32 := 0x80090016
def wsaeintr : UInt32 := 10004
def wsaebadf : UInt32 := 10009
def wsaeacces : UInt32 := 10013
def wsaefault : UInt32 := 10014
def wsaeinval : UInt32 := 10022
def wsaewouldblock : UInt32 := 10035
def wsaeinprogress : UInt32 := 10036
def wsaealready : UInt32 := 10037
def wsaenotsock : UInt32 := 10038
def wsaenoprotoopt : UInt32 := 10042
def wsaepfnosupport : UInt32 := 10046
def wsaeafnosupport : UInt32 := 10047
def wsaeaddrinuse : UInt32 := 10048
def wsaeaddrnotavail : UInt32 := 10049
def wsaeconnaborted : UInt32 := 10053
def wsaeconnreset : UInt32 := 10054
def wsaeisconn : UInt32 := 10056
def wsaenotconn : UInt32 := 10057
def wsaetimedout : UInt32 := 10060
def wsaeconnrefused : UInt32 := 10061
def wsaehostunreach : UInt32 := 10065

/-! ### Error numbers -/

def eperm : Nat := 1
def enoent : Nat := 2
def esrch : Nat := 3
def eintr : Nat := 4
def eio : Nat := 5
def enxio : Nat := 6
def e2big : Nat := 7
def enoexec : Nat := 8
def ebadf : Nat := 9
def echild : Nat := 10
def enomem : Nat := 12
def eacces : Nat := 13
def efault : Nat := 14
def enotblk : Nat := 15
def ebusy : Nat := 16
def eexist : Nat := 17
def exdev : Nat := 18
def enodev : Nat := 19
def enotdir : Nat := 20
def eisdir : Nat := 21
def einval : Nat := 22
def emfile : Nat := 24
def enotty : Nat := 25
def etxtbsy : Nat := 26
def espipe : Nat := 29
def epipe : Nat := 32
def eagain : Nat := 35
def einprogress : Nat := 36
def ealready : Nat := 37
def enotsock : Nat := 38
def enoprotoopt : Nat := 42
def eopnotsupp : Nat := 45
def epfnosupport : Nat := 46
def eafnosupport : Nat := 47
def eaddrinuse : Nat := 48
def eaddrnotavail : Nat := 49
def econnaborted : Nat := 53
def econnreset : Nat := 54
def enobufs : Nat := 55
def eisconn : Nat := 56
def enotconn : Nat := 57
def etimedout : Nat := 60
def econnrefused : Nat := 61
def eloop : Nat := 62
def enametoolong : Nat := 63
def ehostunreach : Nat := 65
def enotempty : Nat := 66
def eftype : Nat := 79
def eoverflow : Nat := 87
def ecanceled : Nat := 88

/-! ### The translation -/

/-- The cases of the switch, with the number each is given. -/
def errnoTable : List (List UInt32 × Nat) :=
  [ ([errorNoMoreFiles, errorSuccess], 0),
    ([wsaeinval, errorInvalidPrimaryGroup, errorBadArguments, errorNotLocked,
      errorInvalidParameter], einval),
    ([errorNoSuchAlias, nerrGroupNotFound, nerrUserNotFound, errorNoneMapped, nteBadKeyset,
      errorModNotFound, errorFileNotFound, errorInvalidName, errorProcNotFound,
      errorPathNotFound], enoent),
    ([errorPrivilegeNotHeld, errorNotAllAssigned, errorLogonSessionExists,
      errorInvalidOperation, errorElevationRequired], eperm),
    ([errorDirectory, errorBadPathname], enotdir),
    ([errorInsufficientBuffer], enobufs),
    ([errorNotEnoughMemory], enomem),
    ([errorParameterQuotaExceeded], e2big),
    ([errorBufferOverflow], eoverflow),
    ([errorFilenameExcedRange], enametoolong),
    ([wsaeacces, errorSqlAccessDenied, errorAccessDenied], eacces),
    ([errorFileExists, errorAlreadyExists], eexist),
    ([errorDirNotEmpty], enotempty),
    ([errorPathBusy], eisdir),
    ([errorUnrecognizedVolume, errorBadFileType], eftype),
    ([errorBadPipe], enotconn),
    ([wsaebadf, errorInvalidHandle], ebadf),
    ([errorSharingViolation], etxtbsy),
    ([errorBadExeFormat], enoexec),
    ([errorInvalidFunction, errorNotSupported], eopnotsupp),
    ([errorInvalidThreadId], esrch),
    ([errorNoData, errorPipeNotConnected, errorBrokenPipe], epipe),
    ([errorPipeConnected], espipe),
    ([errorWaitNoChildren], echild),
    ([errorTooManyOpenFiles], emfile),
    ([wsaefault, errorNoaccess, errorInvalidAddress], efault),
    ([errorNotReady], ebusy),
    ([wsaeintr, errorSignalPending], eintr),
    ([errorBadDevice], enodev),
    ([errorDeviceNotPartitioned, errorDeviceNotAvailable], enxio),
    ([errorTooManyLinks], eloop),
    ([errorCtxNotConsole], enotty),
    ([errorNoMoreItems, errorIoDevice, errorHandleEof, errorInvalidUserBuffer,
      errorOperationAborted], eio),
    ([errorPipeBusy, errorMoreData, errorIoPending, errorLockViolation], eagain),
    ([errorNotSameDevice], exdev),
    ([errorGenFailure], enotblk),
    ([wsaeconnaborted, errorConnectionAborted, errorNetnameDeleted], econnaborted),
    ([wsaealready], ealready),
    ([wsaewouldblock], eagain),
    ([wsaetimedout], etimedout),
    ([wsaeconnreset, errorPipeListening], econnreset),
    ([wsaenotsock], enotsock),
    ([wsaeisconn], eisconn),
    ([wsaenotconn, errorUnexpNetErr], enotconn),
    ([wsaepfnosupport], epfnosupport),
    ([wsaeconnrefused], econnrefused),
    ([wsaenoprotoopt], enoprotoopt),
    ([errorBadNetpath, wsaehostunreach], ehostunreach),
    ([wsaeafnosupport], eafnosupport),
    ([wsaeaddrnotavail], eaddrnotavail),
    ([wsaeinprogress], einprogress),
    ([wsaeaddrinuse], eaddrinuse)
  ]

/-- The error number of a Windows error code. -/
def errnoPosix (error : UInt32) : Nat :=
  match errnoTable.find? (fun row => row.1.contains error) with
  | some row => row.2
  | none => ecanceled

/-- A refusal leaves a code that is reported as a failure. -/
def Answer.Reported : Answer → Prop
  | .ok => True
  | .fail e => errnoPosix e ≠ 0

end MinC.Win

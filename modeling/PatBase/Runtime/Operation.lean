/-
# PatBase.Runtime.Operation -- the eight operations over libuv requests

open.h, read.h, write.h, close.h, getaddrinfo.h, tcp_connect.h, stream_read.h and
stream_write.h are one pattern: `start()` stores `this` in a `data` slot and makes
one libuv call, whose callback casts the slot back and completes the operation.  An
`Operation` is what the members do not share: whose slot it is, and what the
callback makes of what libuv reports.
-/
import PatBase.Runtime.Completion

namespace PatBase.Runtime

set_option autoImplicit false

/-- What libuv hands a callback, with `errno` on the loop thread at that moment. -/
structure Report where
  /-- `fs_op->result`, `status` or `nread` -/
  result : Int
  /-- The list `uv_getaddrinfo` allocated. -/
  res : Nat
  errno : Int
  deriving DecidableEq, Repr

/-- The `data` that `start()` sets. -/
inductive Slot where
  /-- That of the request inside the operation. -/
  | request
  /-- That of the stream handle. -/
  | handle
  deriving DecidableEq, Repr

structure Operation where
  slot : Slot
  callback : Report → Completion

namespace Operation

/-- `_open::_op` -/
def openOp : Operation where
  slot := .request
  callback report := complete (fun descriptor => .file descriptor.toNat) report.result

/-- `_read::_op` -/
def readOp : Operation where
  slot := .request
  callback report := complete (fun bytes => .count bytes.toNat) report.result

/-- `_write::_op`, which reports `errno` and not the result, and no exception. -/
def writeOp : Operation where
  slot := .request
  callback report :=
    if report.result < 0 then .setError (.code ⟨report.errno, .libUV⟩)
    else .setValue (.count report.result.toNat)

/-- `_close::_op` -/
def closeOp : Operation where
  slot := .request
  callback report := complete (fun _ => .unit) report.result

/-- `_getaddrinfo::_op` -/
def getaddrinfoOp : Operation where
  slot := .request
  callback report := complete (fun _ => .addresses report.res) report.result

/-- `_tcp_connect::_op` -/
def tcpConnectOp : Operation where
  slot := .request
  callback report := complete (fun _ => .unit) report.result

/-- The end of a stream is an error of its own. -/
def streamReadResult (nread : Int) : Completion :=
  if nread < 0 then
    if nread = uvEOF then .setError (.exception IoError.kEOF.makeErrorCode)
    else uvError nread
  else .setValue (.count nread.toNat)

/-- `_stream_read::_op` -/
def streamReadOp : Operation where
  slot := .handle
  callback report := streamReadResult report.result

/-- `_stream_write::_op`, whose count is the status. -/
def streamWriteOp : Operation where
  slot := .request
  callback report := complete (fun status => .count status.toNat) report.result

end Operation

/-- The operations. -/
inductive Kind where
  | open
  | read
  | write
  | close
  | getaddrinfo
  | tcpConnect
  | streamRead
  | streamWrite
  deriving DecidableEq, Repr

open Operation in
def Kind.operation : Kind → Operation
  | .open => openOp
  | .read => readOp
  | .write => writeOp
  | .close => closeOp
  | .getaddrinfo => getaddrinfoOp
  | .tcpConnect => tcpConnectOp
  | .streamRead => streamReadOp
  | .streamWrite => streamWriteOp

end PatBase.Runtime

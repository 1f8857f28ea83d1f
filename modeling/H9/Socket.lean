import H9.Exits
import H9.Lib.Framing

/-!
# The message socket's byte stream

`H9Socket` (protocol/h9socket.cc): a message goes out as two `::send` calls, its length and then
its text, and comes in through `recv`, which is called again and again until a message is
complete. The kernel decides how much each call moves: `SendAnswer` is its answer to a `::send`,
`Arrival` to a `::recv`.
-/

namespace H9

open Framing

/-- The kernel's answer to a `::recv`: at most `k + 1` of the bytes written and not yet read,
nothing yet, the end of the stream, or an error. -/
inductive Arrival
  | bytes (k : ℕ)
  | wouldBlock
  | eof
  | error (e : Errno)
deriving DecidableEq, Repr

/-- The receiving end of a connection: the bytes on their way, and the answers to come. With no
answer left there is nothing to read yet. -/
structure Inbound where
  stream : List UInt8
  arrivals : List Arrival
deriving DecidableEq, Repr

/-- What `::recv` gives back. -/
inductive RecvRet
  | bytes (bs : List UInt8)
  | zero
  | error (e : Errno)
deriving DecidableEq, Repr

/-- `::recv` of at most `n` bytes. -/
def Inbound.recv (k : Inbound) (n : ℕ) : RecvRet × Inbound :=
  if n = 0 then (.zero, k)
  else
    match k.arrivals with
    | [] => (.error .EAGAIN, k)
    | .bytes m :: as =>
      if k.stream = [] then (.error .EAGAIN, { k with arrivals := as })
      else (.bytes (k.stream.take (min n (m + 1))),
        { stream := k.stream.drop (min n (m + 1)), arrivals := as })
    | .wouldBlock :: as => (.error .EAGAIN, { k with arrivals := as })
    | .eof :: as => (.zero, { k with arrivals := as })
    | .error e :: as => (.error e, { k with arrivals := as })

/-- The receiving half of an `H9Socket`. The buffers are memory, four bytes and
`data_buf_len + 1` bytes of it. -/
structure H9Socket where
  header_buf : List UInt8
  data_buf : List UInt8
  data_buf_len : ℕ
  recv_bytes : ℕ
  bytes_to_recv : ℕ
deriving DecidableEq, Repr

/-- `H9Socket::H9Socket`; what `malloc` leaves in the buffers is never read. -/
def H9Socket.new : H9Socket where
  header_buf := List.replicate 4 0
  data_buf := List.replicate (4096 + 1) 0
  data_buf_len := 4096
  recv_bytes := 0
  bytes_to_recv := 4

/-- The memory with `bs` written at `off`. -/
def poke (mem : List UInt8) (off : ℕ) (bs : List UInt8) : List UInt8 :=
  mem.take off ++ bs ++ mem.drop (off + bs.length)

/-- The C string at the start of the memory. -/
def cstr (mem : List UInt8) : List UInt8 := mem.takeWhile (· ≠ 0)

/-- What `H9Socket::recv` returns: a message (1), 0, or -1 with `errno`. -/
inductive RecvResult
  | msg (buf : List UInt8)
  | closed
  | error (e : Errno)
deriving DecidableEq, Repr

namespace H9Socket

/-- The length is complete: room for the text, `realloc`ed when the buffer is too small. -/
def grow (h : H9Socket) : H9Socket :=
  let tmp := ofBe h.header_buf
  if h.data_buf_len < tmp then
    { h with
      data_buf := h.data_buf ++ List.replicate (tmp - h.data_buf_len) 0
      data_buf_len := tmp
      bytes_to_recv := h.bytes_to_recv + tmp }
  else { h with bytes_to_recv := h.bytes_to_recv + tmp }

/-- The end of `H9Socket::recv`: `EAGAIN` while bytes are missing, else the text up to its NUL. -/
def finish (h : H9Socket) (k : Inbound) : RecvResult × H9Socket × Inbound :=
  if h.recv_bytes < h.bytes_to_recv then (.error .EAGAIN, h, k)
  else
    let data_buf := poke h.data_buf (h.recv_bytes - 4) [0]
    (.msg (cstr data_buf), { h with data_buf := data_buf, bytes_to_recv := 4, recv_bytes := 0 }, k)

/-- The data part of `H9Socket::recv`. -/
def recv_data (h : H9Socket) (k : Inbound) : RecvResult × H9Socket × Inbound :=
  match k.recv (h.bytes_to_recv - h.recv_bytes) with
  | (.zero, k') => (.closed, h, k')
  | (.error e, k') => (.error e, h, k')
  | (.bytes bs, k') =>
    finish { h with
      data_buf := poke h.data_buf (h.recv_bytes - 4) bs
      recv_bytes := h.recv_bytes + bs.length } k'

/-- `H9Socket::recv`, with no timeout. -/
def recv (h : H9Socket) (k : Inbound) : RecvResult × H9Socket × Inbound :=
  if h.recv_bytes < 4 then
    match k.recv (4 - h.recv_bytes) with
    | (.zero, k') => (.closed, h, k')
    | (.error e, k') => (.error e, h, k')
    | (.bytes bs, k') =>
      let h' := { h with
        header_buf := poke h.header_buf h.recv_bytes bs
        recv_bytes := h.recv_bytes + bs.length }
      if h'.recv_bytes = 4 then h'.grow.recv_data k' else h'.finish k'
  else h.recv_data k

/-- `n` calls of `recv`: what they return, and what they leave. -/
def recvs : ℕ → H9Socket → Inbound → List RecvResult × H9Socket × Inbound
  | 0, h, k => ([], h, k)
  | n + 1, h, k =>
    let first := h.recv k
    let rest := recvs n first.2.1 first.2.2
    (first.1 :: rest.1, rest.2)

end H9Socket

/-- The messages among what `recv` returned. -/
def msgs (rs : List RecvResult) : List (List UInt8) :=
  rs.filterMap fun
    | .msg p => some p
    | _ => none

/-- The kernel's answer to a `::send`: it takes at most `k + 1` bytes, none, or fails. -/
inductive SendAnswer
  | count (k : ℕ)
  | zero
  | error (e : Errno)
deriving DecidableEq, Repr

/-- What a `::send` of `bs` puts on the stream. -/
def SendAnswer.taken (a : SendAnswer) (bs : List UInt8) : List UInt8 :=
  match a with
  | .count k => bs.take (k + 1)
  | _ => []

/-- What `H9Socket::send` returns: the bytes written as an `int`, 0, or -1, the last without a
fresh `errno` when the text went out in part. -/
inductive SendResult
  | sent (ret : ℤ)
  | zero
  | error (e : Errno)
  | incomplete
deriving DecidableEq, Repr

/-- `H9Socket::send`, with the kernel's answers to its two `::send` calls: what it returns, and
what it puts on the stream. How much of the length went out is not looked at. -/
def H9Socket.send (buf : List UInt8) (a₁ a₂ : SendAnswer) : SendResult × List UInt8 :=
  match a₁ with
  | .zero => (.zero, [])
  | .error e => (.error e, [])
  | .count _ =>
    let header := a₁.taken (be32 buf.length)
    match a₂ with
    | .zero => (.zero, header)
    | .error e => (.error e, header)
    | .count _ =>
      let text := a₂.taken buf
      if text.length = 0 then (.zero, header)
      else if text.length ≠ buf.length then (.incomplete, header ++ text)
      else (.sent (Int.bmod (text.length + 4) (2 ^ 32)), header ++ text)

/-- What `GenericMsg::serialize` yields: a C string, whose length libxml2 counts in an `int`. -/
structure Payload where
  text : List UInt8
  ne_nil : text ≠ []
  nul_free : 0 ∉ text
  short : text.length < 2 ^ 31

/-- One `H9Socket::send`: the payload, and the kernel's answers to its `::send` calls. -/
structure Call where
  payload : Payload
  header : SendAnswer
  text : SendAnswer

namespace Call

/-- What the call puts on the stream. -/
def wire (c : Call) : List UInt8 := (H9Socket.send c.payload.text c.header c.text).2

/-- Both `::send` calls take all their bytes. -/
def Full (c : Call) : Prop :=
  ∃ j k, c.header = .count j ∧ 4 ≤ j + 1 ∧ c.text = .count k ∧ c.payload.text.length ≤ k + 1

/-- No `::send` takes a byte. -/
def Silent (c : Call) : Prop := ∀ k, c.header ≠ .count k

/-- No byte of the text goes out behind a length that is not out completely. -/
def Tidy (c : Call) : Prop := ∀ j k, c.header = .count j → c.text = .count k → 4 ≤ j + 1

end Call

/-- The stream the calls leave, one after another. -/
def wire (cs : List Call) : List UInt8 := cs.flatMap Call.wire

/-- After a message is cut, no call takes a byte. -/
def NoGap : List Call → Prop
  | [] => True
  | c :: cs => (c.Full ∨ c.Silent) ∧ NoGap cs ∨ c.Tidy ∧ ∀ d ∈ cs, d.Silent

end H9

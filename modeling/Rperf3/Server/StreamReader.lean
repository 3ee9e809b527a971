/-
  `recv_stream_bytes`: a server reader thread, from the handover of its socket to its receipt.

  The thread's environment is a list of `RecvTurn`s, what its successive `recv` calls return and the
  clock.  `recvStreamBytes` is its receipt, `none` while it reads.  `Drains` describes the turns of
  a connection that still delivers some bytes and is then closed by the peer: pieces of ANY size
  that fit the buffer, interrupted calls in between.  Whatever the pieces, the receipt counts the
  bytes.
-/
import Rperf3.Common.Config

namespace Rperf3

/-- One `recv` of the reader: what it returned, and the clock. -/
structure RecvTurn where
  now : Nat
  outcome : Except IoError Nat

/-- The loop of `recv_stream_bytes`. -/
def recvStreamLoop (omitWindow : Nat) : List RecvTurn → StreamReceipt → Option StreamReceipt
  | [], _ => none
  | t :: ts, r =>
    match t.outcome with
    | .ok 0 => some r
    | .ok (n + 1) => recvStreamLoop omitWindow ts (r.recordBytes omitWindow t.now (n + 1))
    | .error e => if e.kind = .interrupted then recvStreamLoop omitWindow ts r else some r

/-- `recv_stream_bytes`. -/
def recvStreamBytes (omitWindow : Nat) (turns : List RecvTurn) : Option StreamReceipt :=
  recvStreamLoop omitWindow turns .empty

/-- The turns of a connection on which `bytes` arrive, then the end of the stream. -/
inductive Drains : Bytes → List RecvTurn → Prop
  | piece {now n : Nat} {bytes : Bytes} {ts : List RecvTurn} (hpos : 0 < n)
      (hbuf : n ≤ defaultTcpLen) (hn : n ≤ bytes.length) (rest : Drains (bytes.drop n) ts) :
      Drains bytes (⟨now, .ok n⟩ :: ts)
  | interrupted {now : Nat} {e : IoError} {bytes : Bytes} {ts : List RecvTurn}
      (hkind : e.kind = .interrupted) (rest : Drains bytes ts) :
      Drains bytes (⟨now, .error e⟩ :: ts)
  | closed {now : Nat} {ts : List RecvTurn} : Drains [] (⟨now, .ok 0⟩ :: ts)

/-- **A drained connection is counted byte by byte.** -/
theorem recvStreamLoop_drains (omitWindow : Nat) {bytes : Bytes} {ts : List RecvTurn}
    (h : Drains bytes ts) : ∀ r : StreamReceipt, ∃ r', recvStreamLoop omitWindow ts r = some r' ∧
      r'.bytes = r.bytes + bytes.length := by
  induction h with
  | piece hpos hbuf hn rest ih =>
    intro r
    rename_i now n bytes ts
    obtain ⟨k, rfl⟩ : ∃ k, n = k + 1 := ⟨n - 1, by omega⟩
    obtain ⟨r', hrun, hbytes⟩ := ih (r.recordBytes omitWindow now (k + 1))
    refine ⟨r', hrun, ?_⟩
    rw [hbytes, List.length_drop]
    show r.bytes + (k + 1) + (bytes.length - (k + 1)) = r.bytes + bytes.length
    omega
  | interrupted hkind rest ih =>
    intro r
    obtain ⟨r', hrun, hbytes⟩ := ih r
    refine ⟨r', ?_, hbytes⟩
    rw [recvStreamLoop]
    show (if _ then _ else _) = _
    rw [if_pos hkind]
    exact hrun
  | closed =>
    intro r
    exact ⟨r, rfl, rfl⟩

theorem recvStreamBytes_drains (omitWindow : Nat) {bytes : Bytes} {ts : List RecvTurn}
    (h : Drains bytes ts) :
    ∃ r, recvStreamBytes omitWindow ts = some r ∧ r.bytes = bytes.length := by
  obtain ⟨r, hrun, hbytes⟩ := recvStreamLoop_drains omitWindow h .empty
  exact ⟨r, hrun, hbytes.trans (Nat.zero_add _)⟩

end Rperf3

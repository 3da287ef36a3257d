import LibTg.Tl.FlagWords

/-!
# The session state that messages are numbered from (`tg/tg.h`, `tg/header.c`)

A session keeps one counter `seqn` for content-related messages and a clock difference `timediff`.
Every message takes its id from the clock and its sequence number from the counter. The clock is a
parameter: `clock n` is the `n`-th reading that the program takes. The conversion of a reading to a
message id, which the source does in `double`, is modelled in exact integer arithmetic.
-/

namespace LibTg.Tg

open LibTg.Tl

/-- A reading of `CLOCK_REALTIME`. -/
structure Timespec where
  sec : ℕ
  nsec : ℕ
  nsec_lt : nsec < 10 ^ 9
  deriving DecidableEq

/-- A full second has no nanoseconds. -/
theorem zero_nsec_lt : 0 < 10 ^ 9 := by decide

def Timespec.nanos (reading : Timespec) : ℕ := reading.sec * 10 ^ 9 + reading.nsec

/-- `(long long)((1LL << 32) * tg_get_utime(CLOCK_REALTIME)) & -4`. -/
def clockId (reading : Timespec) : ℕ := 2 ^ 32 * reading.nanos / 10 ^ 9 / 4 * 4

/-- `tg_get_current_time` for a given reading, as the `uint64_t` that it is stored in. -/
def msgIdAt (reading : Timespec) (timediff : ℤ) : UInt64 :=
  UInt64.ofInt (clockId reading + timediff)

/-- The fields of `tg_t` that building a packet reads or writes, and the number of clock readings
taken so far. -/
structure Session where
  salt : Bytes
  ssid : Bytes
  msgids : List UInt64
  todrop : List UInt64
  seqn : ℤ
  timediff : ℤ
  ticks : ℕ
  deriving DecidableEq

def tgGetCurrentTime (clock : ℕ → Timespec) (tg : Session) : UInt64 × Session :=
  (msgIdAt (clock tg.ticks) tg.timediff, { tg with ticks := tg.ticks + 1 })

/-- The section under `seqnm`: a content-related message gets an odd number and moves the counter
on, any other message gets an even number. -/
def nextSeqno (seqn : ℤ) (content : Bool) : ℤ × ℤ :=
  if content then (seqn * 2 + 1, seqn + 1) else (seqn * 2, seqn)

/-- The sequence number as it is written, and the session after the section. -/
def takeSeqno (tg : Session) (content : Bool) : UInt32 × Session :=
  let (seqno, seqn) := nextSeqno tg.seqn content
  (UInt32.ofInt seqno, { tg with seqn := seqn })

def tgAddMsgid (tg : Session) (msgid : UInt64) : Session :=
  { tg with msgids := tg.msgids ++ [msgid] }

def tgAddTodrop (tg : Session) (msgid : UInt64) : Session :=
  { tg with todrop := tg.todrop ++ [msgid] }

def listAdd {Item : Type*} (items : List Item) (item : Item) : List Item := item :: items

/-- `list_cut`: the first item that matches, and the list without it. -/
def listCut {Item : Type*} (cmp : Item → Bool) (items : List Item) : Option Item × List Item :=
  (items.find? cmp, items.eraseP cmp)

/-- `ntp_time_diff`, which returns before it asks the time server. -/
def ntpTimeDiff : ℤ := 0

end LibTg.Tg

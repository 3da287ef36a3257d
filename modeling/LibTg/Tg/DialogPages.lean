import LibTg.Tg.DialogJoin

/-!
# Loading all dialogs

`tg_get_dialogs` without a limit asks for twenty dialogs at a time until it has counted as many as
the server says there are. The offset of the queries is never moved, so every answer is the first
one again. An answer `messages.dialogs` says no number, and the number stays at the one that the loop
begins with.
-/

namespace LibTg.Tg

open LibTg.Tl

section Server

variable (codec : Codec) (offsetDate : UInt32)

/-- A server that holds a list of dialogs. It gives those behind an offset in its order, and every
list of dialogs with what it is about. Loading begins at an offset before all dialogs. A server may
answer `messages.dialogs` where all dialogs fit. -/
structure DialogServer where
  held : List TlAnyDialog
  source : TlAnyDialog → TlDialog
  source_eq : ∀ entry ∈ held, dialogSource (some entry) = .dialog (source entry)
  distinct : (held.map source).Nodup
  after : UInt32 → UInt32 → List TlAnyDialog
  after_suffix : ∀ date id, after date id <:+ held
  after_start : after offsetDate 0xffffffff = held
  lists : List TlAnyDialog → TlDialogs
  lists_dialogs : ∀ page, (lists page).dialogs = page.map some
  entityOf_ne_none : ∀ page ⊆ held, ∀ entry ∈ page, (lists page).entityOf (source entry) ≠ none
  converts : ∀ page ⊆ held, ∀ message, some (.message message) ∈ (lists page).messages →
    tgMessageFromTl codec message ≠ none
  slice : Bool

variable {codec offsetDate} (onLog : Bool)

/-- The dialogs of an answer. -/
def DialogServer.page (server : DialogServer codec offsetDate) (query : GetDialogs) :
    List TlAnyDialog :=
  (server.after query.offsetDate query.offsetId).take query.limit.toNat

/-- The answer to a query. -/
def DialogServer.answer (server : DialogServer codec offsetDate) (query : GetDialogs) :
    TlDialogsAnswer :=
  if server.slice ∨ query.limit.toNat < server.held.length then
    .dialogsSlice (UInt32.ofNat server.held.length) (server.lists (server.page query))
  else .dialogs (server.lists (server.page query))

/-- The run of `tg_get_dialogs` with a server and a callback that returns zero. -/
def DialogServer.load (server : DialogServer codec offsetDate) (args : DialogArgs) (fuel : ℕ) :
    List DialogEvent × DialogsEnd :=
  tgGetDialogs codec onLog (some fun _ _ ↦ 0) args (fun _ query ↦ some (server.answer query)) fuel

/-- Without a limit every dialog is reported once, and the load ends. -/
def LoadsAll (server : DialogServer codec offsetDate) : Prop :=
  ∀ (onLog : Bool) (args : DialogArgs), args.limit ≤ 0 → args.offsetDate = offsetDate →
    ∃ fuel t, (server.load onLog args fuel).2 = .returned t ∧
      ((reported (server.load onLog args fuel).1).map Prod.fst).Perm
        (server.held.map server.source)

/-! ## One answer -/

theorem entityOf_of_numbered {md : TlDialogs} {dialog : TlDialog}
    (hentity : md.entityOf dialog ≠ none) : md.numbered dialog ≠ [] := by
  obtain ⟨entity, hentity⟩ := Option.ne_none_iff_exists'.mp hentity
  exact List.ne_nil_of_mem (entityOf_some hentity).2

/-- Nothing in a page of the server is a null pointer that is followed. -/
theorem DialogServer.not_faults (server : DialogServer codec offsetDate) {page : List TlAnyDialog}
    (hpage : page ⊆ server.held) {entry : TlAnyDialog} (hentry : entry ∈ page) :
    ¬ Faults codec onLog (server.lists page) (server.source entry) := by
  have hnumbered := entityOf_of_numbered (server.entityOf_ne_none page hpage entry hentry)
  unfold Faults
  rw [if_neg hnumbered]
  rintro ⟨message, hmem, hnone⟩
  exact server.converts page hpage message (mem_messages_of_withId hmem) hnone

/-- A round for a dialog that is reported to a callback that does not stop. -/
theorem dialogLoop_cons_reported {md : TlDialogs} {entry : Option TlAnyDialog} {dialog : TlDialog}
    (hsource : dialogSource entry = .dialog dialog) (hfaults : ¬ Faults codec onLog md dialog)
    (hnumbered : md.numbered dialog ≠ []) (entries : List (Option TlAnyDialog))
    (hash : Option UInt64) (n : ℕ) :
    (dialogLoop codec onLog (some fun _ _ ↦ 0) md (entry :: entries) hash n).2 =
      (dialogLoop codec onLog (some fun _ _ ↦ 0) md entries
        (hash.map (updateHash · (joined codec md dialog).topMessageId)) (n + 1)).2 := by
  rw [dialogLoop, hsource]
  rcases dialogRound_cases codec onLog md dialog with ⟨h, -⟩ | ⟨-, h, -⟩ | ⟨-, -, stored, hround⟩
  · exact absurd h hfaults
  · exact absurd h hnumbered
  · dsimp only
    rw [hround]
    rfl

/-- All dialogs of a page are reported, in their order. -/
theorem DialogServer.dialogLoop_page (server : DialogServer codec offsetDate)
    {page : List TlAnyDialog} (hpage : page ⊆ server.held) {entries : List TlAnyDialog}
    (hentries : entries ⊆ page) (hash : Option UInt64) (n : ℕ) :
    (reported (dialogLoop codec onLog (some fun _ _ ↦ 0) (server.lists page) (entries.map some)
        hash n).1).map Prod.fst = entries.map server.source ∧
      ∃ last, (dialogLoop codec onLog (some fun _ _ ↦ 0) (server.lists page) (entries.map some)
        hash n).2 = some (last, ((n + entries.length : ℕ) : ℤ)) := by
  induction entries generalizing hash n with
  | nil => exact ⟨rfl, hash, rfl⟩
  | cons entry entries ih =>
    obtain ⟨hentry, hrest⟩ := List.cons_subset.mp hentries
    have hsource := server.source_eq entry (hpage hentry)
    have hfaults := server.not_faults onLog hpage hentry
    have hnumbered := entityOf_of_numbered (server.entityOf_ne_none page hpage entry hentry)
    obtain ⟨hreported, last, hlast⟩ := ih hrest
      (hash.map (updateHash · (joined codec (server.lists page) (server.source entry)).topMessageId))
      (n + 1)
    rw [List.map_cons]
    constructor
    · rw [reported_dialogLoop_cons, hsource]
      dsimp only
      rw [if_neg hfaults, if_neg hnumbered, List.map_append]
      exact congrArg (server.source entry :: ·) hreported
    · refine ⟨last, ?_⟩
      rw [dialogLoop_cons_reported onLog hsource hfaults hnumbered, hlast, List.length_cons]
      congr 3
      omega

/-- What the loop keeps between two queries: the offset is the one that it began with, and nothing has
asked it to stop. -/
def AtStart (offsetDate : UInt32) (t : TgGetDialogs) : Prop :=
  t.offsetDate = offsetDate ∧ t.offsetId = 0xffffffff ∧ t.stop = false

theorem DialogServer.page_query (server : DialogServer codec offsetDate) {args : DialogArgs}
    (hlimit : args.limit ≤ 0) {t : TgGetDialogs} (hstart : AtStart offsetDate t) :
    (args.query t).limit = 20 ∧ server.page (args.query t) = server.held.take 20 := by
  have hquery : (args.query t).limit = 20 := if_neg (Int32.not_lt.mpr hlimit)
  refine ⟨hquery, ?_⟩
  unfold DialogServer.page
  have hafter : server.after (args.query t).offsetDate (args.query t).offsetId = server.held := by
    unfold DialogArgs.query
    rw [hstart.1, hstart.2.1, server.after_start]
  rw [hafter, hquery]
  rfl

/-- The number that the loop counts to after an answer. -/
def DialogServer.total (server : DialogServer codec offsetDate) (t : TgGetDialogs) : Int32 :=
  if server.slice ∨ 20 < server.held.length then (UInt32.ofNat server.held.length).toInt32
  else t.total

/-- Every answer has the first twenty dialogs. They are reported and counted. -/
theorem DialogServer.round_eq (server : DialogServer codec offsetDate) {args : DialogArgs}
    (hlimit : args.limit ≤ 0) {t : TgGetDialogs} (hstart : AtStart offsetDate t) :
    ∃ events t', tgGetDialogsCallback codec onLog (some fun _ _ ↦ 0) t
        (some (server.answer (args.query t))) = (events, some t') ∧
      (reported events).map Prod.fst = (server.held.take 20).map server.source ∧
      AtStart offsetDate t' ∧
      t'.count = t.count + Int32.ofNat (server.held.take 20).length ∧
      t'.total = server.total t := by
  obtain ⟨hquery, hpage⟩ := server.page_query hlimit hstart
  have hfrom : floodWait (server.answer (args.query t)) = [] ∧
      tgDialogsFromTl codec onLog (some fun _ _ ↦ 0) t (some (server.answer (args.query t))) =
        dialogsFromLists codec onLog (some fun _ _ ↦ 0) { t with total := server.total t }
          (server.lists (server.held.take 20)) := by
    unfold DialogServer.answer DialogServer.total
    rw [hpage, hquery, show UInt32.toNat 20 = 20 from rfl]
    split
    · exact ⟨rfl, rfl⟩
    · exact ⟨rfl, rfl⟩
  obtain ⟨hreported, last, hlast⟩ := server.dialogLoop_page onLog
    (List.take_subset 20 server.held) (List.Subset.refl _) t.hash 0
  unfold tgGetDialogsCallback
  dsimp only
  rw [hfrom.1, hfrom.2]
  unfold dialogsFromLists
  rw [server.lists_dialogs, List.length_map]
  dsimp only
  rw [hlast, Option.map_some, Option.map_some, if_neg (by omega)]
  exact ⟨_, _, rfl, hreported, hstart, rfl, rfl⟩

/-! ## The run -/

/-- The loop of `tg_get_dialogs` with a server, from a round on. -/
def DialogServer.run (server : DialogServer codec offsetDate) (args : DialogArgs) :
    ℕ → ℕ → TgGetDialogs → List DialogEvent × DialogsEnd :=
  getDialogsFrom codec onLog (some fun _ _ ↦ 0) args fun _ query ↦ some (server.answer query)

/-- A round that does not stop is followed by the next one. -/
theorem DialogServer.run_succ (server : DialogServer codec offsetDate) {args : DialogArgs}
    (hlimit : args.limit ≤ 0) {t t' : TgGetDialogs} {events : List DialogEvent}
    (hcallback : tgGetDialogsCallback codec onLog (some fun _ _ ↦ 0) t
      (some (server.answer (args.query t))) = (events, some t'))
    (hstop : t'.stop = false) (hcount : t.count < t.total) (fuel round : ℕ) :
    server.run onLog args (fuel + 1) round t =
      (events ++ (server.run onLog args fuel (round + 1) t').1,
        (server.run onLog args fuel (round + 1) t').2) := by
  unfold DialogServer.run
  rw [getDialogsFrom, if_pos hcount, hcallback]
  dsimp only
  rw [if_neg (not_or.mpr ⟨Int32.not_lt.mpr hlimit, by rw [hstop]; decide⟩)]

/-- The loop ends where everything has been counted. -/
theorem DialogServer.run_counted (server : DialogServer codec offsetDate) (args : DialogArgs)
    {t : TgGetDialogs} (hcount : ¬ t.count < t.total) (fuel round : ℕ) :
    server.run onLog args (fuel + 1) round t = ([], .returned t) := by
  unfold DialogServer.run
  rw [getDialogsFrom, if_neg hcount]

/-- Whatever a run reports is among the first twenty dialogs. -/
theorem DialogServer.run_subset (server : DialogServer codec offsetDate) {args : DialogArgs}
    (hlimit : args.limit ≤ 0) (fuel round : ℕ) {t : TgGetDialogs} (hstart : AtStart offsetDate t) :
    (reported (server.run onLog args fuel round t).1).map Prod.fst ⊆
      (server.held.take 20).map server.source := by
  induction fuel generalizing round t with
  | zero => exact List.nil_subset _
  | succ fuel ih =>
    obtain ⟨events, t', hcallback, hreported, hstart', -, -⟩ := server.round_eq onLog hlimit hstart
    by_cases hcount : t.count < t.total
    · rw [server.run_succ onLog hlimit hcallback hstart'.2.2 hcount, reported_append, List.map_append,
        hreported]
      exact List.append_subset.mpr ⟨List.Subset.refl _, ih (round + 1) hstart'⟩
    · rw [server.run_counted onLog args hcount]
      exact List.nil_subset _

/-- Without a dialog the answers `messages.dialogs` never end the loop. -/
theorem DialogServer.run_empty (server : DialogServer codec offsetDate) {args : DialogArgs}
    (hlimit : args.limit ≤ 0) (hempty : server.held = []) (hslice : server.slice = false)
    (fuel round : ℕ) {t : TgGetDialogs} (hstart : AtStart offsetDate t) (hcount : t.count = 0)
    (htotal : t.total = 1) : (server.run onLog args fuel round t).2 = .running := by
  induction fuel generalizing round t with
  | zero => rfl
  | succ fuel ih =>
    obtain ⟨events, t', hcallback, -, hstart', hcount', htotal'⟩ := server.round_eq onLog hlimit hstart
    rw [server.run_succ onLog hlimit hcallback hstart'.2.2 (by rw [hcount, htotal]; decide)]
    apply ih (round + 1) hstart'
    · rw [hcount', hcount, hempty]
      rfl
    · rw [htotal', ← htotal]
      exact if_neg (by simp [hempty, hslice])

/-- The state before the first query is at the start, and there is a first query. -/
theorem atStart_start (args : DialogArgs) (hdate : args.offsetDate = offsetDate) :
    AtStart offsetDate args.start := ⟨hdate, rfl, rfl⟩

theorem count_start (args : DialogArgs) : args.start.count < args.start.total :=
  show (0 : Int32) < 1 by decide

variable (offsetDate) in
/-- The arguments of a load without a limit. -/
def unlimited : DialogArgs := ⟨-1, offsetDate, none, none⟩

variable (offsetDate) in
theorem unlimited_limit : (unlimited offsetDate).limit ≤ 0 :=
  show (-1 : Int32) ≤ 0 by decide

/-- Up to twenty dialogs come with the first answer. The count is then as large as the total, which is
their number or stays one. -/
theorem DialogServer.loads_of_le (server : DialogServer codec offsetDate)
    (hlength : server.held.length ≤ 20) (hslice : server.held = [] → server.slice = true) :
    LoadsAll server := by
  intro onLog args hlimit hdate
  obtain ⟨events, t, hcallback, hreported, hstart, hcount, htotal⟩ :=
    server.round_eq onLog hlimit (atStart_start args hdate)
  rw [List.take_of_length_le hlength] at hreported hcount
  have hcounted : ¬ t.count < t.total := by
    have hslices : ∀ n < 21, ¬ (0 + Int32.ofNat n < (UInt32.ofNat n).toInt32) := by decide
    have hwhole : ∀ n < 21, n ≠ 0 → ¬ (0 + Int32.ofNat n < 1) := by decide
    rw [hcount, htotal]
    unfold DialogServer.total
    split
    · exact hslices server.held.length (by omega)
    · next hnot =>
      apply hwhole server.held.length (by omega)
      intro hzero
      exact hnot (.inl (hslice (List.length_eq_zero_iff.mp hzero)))
  refine ⟨2, t, ?_⟩
  have hrun : server.load onLog args 2 = (events ++ [], .returned t) := by
    have hfirst := server.run_succ onLog hlimit hcallback hstart.2.2 (count_start args) 1 0
    rw [server.run_counted onLog args hcounted] at hfirst
    exact hfirst
  rw [hrun]
  refine ⟨rfl, ?_⟩
  rw [List.append_nil, hreported]

/-- With more than twenty dialogs the rest is never reported. -/
theorem DialogServer.not_loads_of_lt (server : DialogServer codec offsetDate)
    (hlength : 20 < server.held.length) : ¬ LoadsAll server := by
  intro hloads
  obtain ⟨fuel, t, -, hperm⟩ := hloads false (unlimited offsetDate) (unlimited_limit offsetDate) rfl
  have hsubset := server.run_subset false (unlimited_limit offsetDate) fuel 0 (atStart_start (unlimited offsetDate) rfl)
  have hle := (List.subperm_of_subset (hperm.nodup_iff.mpr server.distinct) hsubset).length_le
  have hlengths := hperm.length_eq
  simp only [List.length_map, List.length_take] at hle hlengths
  omega

/-- With no dialog, a server that answers `messages.dialogs` is asked for ever. -/
theorem DialogServer.not_loads_of_empty (server : DialogServer codec offsetDate)
    (hempty : server.held = []) (hslice : server.slice = false) : ¬ LoadsAll server := by
  intro hloads
  obtain ⟨fuel, t, hreturned, -⟩ := hloads false (unlimited offsetDate) (unlimited_limit offsetDate) rfl
  have hrunning := server.run_empty false (unlimited_limit offsetDate) hempty hslice fuel 0
    (atStart_start (unlimited offsetDate) rfl) rfl rfl
  cases hreturned.symm.trans hrunning

/-- All dialogs are loaded exactly if there are at most twenty, and at least one where the server
answers `messages.dialogs`. -/
theorem loadsAll_iff (server : DialogServer codec offsetDate) :
    LoadsAll server ↔
      server.held.length ≤ 20 ∧ (server.held = [] → server.slice = true) := by
  constructor
  · intro hloads
    constructor
    · by_contra hlength
      exact server.not_loads_of_lt (by omega) hloads
    · intro hempty
      by_contra hslice
      exact server.not_loads_of_empty hempty (by simpa using hslice) hloads
  · intro h
    exact server.loads_of_le h.1 h.2

end Server

/-! ## Twenty-one dialogs -/

/-- A dialog with a user, whose number is that of the top message. -/
def numberedDialog (k : ℕ) : TlDialog :=
  { userDialog with
    peer := some ⟨idPeerUser, UInt64.ofNat k⟩
    topMessage := UInt32.ofNat k }

/-- Twenty-one dialogs, the one with the newest message first. -/
def manyDialogs : List TlAnyDialog := (List.range 21).reverse.map fun k ↦ .dialog (numberedDialog k)

/-- The dialog of an entry. -/
def plainSource : TlAnyDialog → TlDialog
  | .dialog dialog => dialog
  | _ => userDialog

/-- The users of these dialogs. -/
def manyUsers : List (Option TlAnyUser) :=
  (List.range 21).map fun k ↦ some (.user ⟨UInt64.ofNat k, 0, [97], [], none⟩)

/-- A server with these dialogs, which are ordered by their top message. -/
def manyServer : DialogServer plainCodec 0 where
  held := manyDialogs
  source := plainSource
  source_eq := by decide +kernel
  distinct := by decide +kernel
  after _ id := manyDialogs.dropWhile fun entry ↦ id ≤ (plainSource entry).topMessage
  after_suffix _ _ := List.dropWhile_suffix _
  after_start := by decide +kernel
  lists page := ⟨page.map some, [], [], manyUsers⟩
  lists_dialogs _ := rfl
  entityOf_ne_none page hpage entry hentry := by
    have hall : ∀ entry ∈ manyDialogs,
        (⟨[], [], [], manyUsers⟩ : TlDialogs).entityOf (plainSource entry) ≠ none := by
      decide +kernel
    exact hall entry (hpage hentry)
  converts _ _ _ hmessage := by cases hmessage
  slice := true

/-- The last of these dialogs is never reported. -/
theorem not_loadsAll_manyServer : ¬ LoadsAll manyServer :=
  manyServer.not_loads_of_lt (by decide)

end LibTg.Tg

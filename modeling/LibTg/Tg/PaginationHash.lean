import LibTg.Data.Mixing
import LibTg.Tg.DialogJoin

/-!
# The hash of the dialogs (`tg/tg.c`, `tg/dialogs.c`)

`update_hash` mixes the number of a message into a word of 64 bits. `tg_dialogs_from_tl` does so with
the top message of every dialog that it stores, and the next query sends the word. Two lists of
dialogs that differ in one top message have different hashes.
-/

namespace LibTg.Tg

open LibTg.Tl

/-! ## One step -/

theorem xorShiftRight64_injective (count : UInt64) (hcount : 0 < (count.toBitVec % 64#64).toNat) :
    Function.Injective fun h : UInt64 ↦ h ^^^ h >>> count := by
  intro first second heq
  have hbits := congrArg UInt64.toBitVec heq
  simp only [UInt64.toBitVec_xor, UInt64.toBitVec_shiftRight] at hbits
  exact UInt64.toBitVec_inj.mp (xorShiftRight_injective hcount hbits)

theorem xorShiftLeft64_injective (count : UInt64) (hcount : 0 < (count.toBitVec % 64#64).toNat) :
    Function.Injective fun h : UInt64 ↦ h ^^^ h <<< count := by
  intro first second heq
  have hbits := congrArg UInt64.toBitVec heq
  simp only [UInt64.toBitVec_xor, UInt64.toBitVec_shiftLeft] at hbits
  exact UInt64.toBitVec_inj.mp (xorShiftLeft_injective hcount hbits)

/-- A step can be undone. -/
theorem updateHash_injective (msgId : UInt32) : Function.Injective (updateHash · msgId) := by
  have hmixed := (xorShiftRight64_injective 4 (by decide)).comp
    ((xorShiftLeft64_injective 35 (by decide)).comp
      (xorShiftRight64_injective 21 (by decide)))
  intro first second heq
  exact hmixed ((UInt64.add_left_inj msgId.toUInt64).mp heq)

/-- A step tells two messages apart. -/
theorem updateHash_msgId_injective (hash : UInt64) : Function.Injective (updateHash hash) := by
  intro first second heq
  exact UInt32.toUInt64_inj.mp ((UInt64.add_right_inj _).mp heq)

instance finiteUInt64 : Finite UInt64 :=
  Finite.of_injective (fun word : UInt64 ↦ word.toFin) fun _ _ heq ↦ UInt64.toFin_inj.mp heq

theorem updateHash_bijective (msgId : UInt32) : Function.Bijective (updateHash · msgId) :=
  Finite.injective_iff_bijective.mp (updateHash_injective msgId)

/-! ## All dialogs of an answer -/

/-- The top messages of the dialogs that are stored. -/
def storedIds (events : List DialogEvent) : List UInt32 :=
  events.filterMap fun
    | .dialogToDatabase d => some d.topMessageId
    | _ => none

section Codec

variable {codec : Codec} {onLog : Bool} {callback : Option DialogCallback}

/-- The top messages of the dialogs of an answer that an entity has the number of. -/
def knownIds (md : TlDialogs) (entries : List (Option TlAnyDialog)) : List UInt32 :=
  entries.filterMap fun entry ↦
    match dialogSource entry with
    | .dialog dialog => if md.numbered dialog = [] then none else some dialog.topMessage
    | _ => none

theorem storedIds_append (first second : List DialogEvent) :
    storedIds (first ++ second) = storedIds first ++ storedIds second := List.filterMap_append

theorem storedIds_messages (stored : List TgMessageT) :
    storedIds (stored.map .messageToDatabase) = [] := by
  induction stored with
  | nil => rfl
  | cons tgm stored ih => exact ih

theorem storedIds_callDialog (count : ℕ) (dialog : TlDialog) (d : TgDialog) :
    storedIds (callDialog callback count dialog d).1 = [] := by
  cases callback <;> rfl

theorem joined_topMessageId (md : TlDialogs) (dialog : TlDialog) :
    (joined codec md dialog).topMessageId = dialog.topMessage := by
  rw [joined_keep TgDialog.topMessageId fun _ _ ↦ rfl]
  exact joinEntities_keep TgDialog.topMessageId (fun d entity ↦ by rw [toDialog_eq]) md dialog

/-- The hash that the loop leaves is that of the dialogs it has stored. If no call of the callback has
stopped it, these are all the known ones. -/
theorem dialogLoop_hash {md : TlDialogs} {entries : List (Option TlAnyDialog)}
    {hash last : Option UInt64} {n : ℕ} {result : ℤ}
    (hlast : (dialogLoop codec onLog callback md entries hash n).2 = some (last, result)) :
    last = hash.map ((storedIds (dialogLoop codec onLog callback md entries hash n).1).foldl updateHash) ∧
      (0 ≤ result →
        storedIds (dialogLoop codec onLog callback md entries hash n).1 = knownIds md entries) := by
  induction entries generalizing hash n with
  | nil =>
    cases hlast
    exact ⟨by cases last <;> rfl, fun _ ↦ rfl⟩
  | cons entry entries ih =>
    rw [dialogLoop] at hlast ⊢
    unfold knownIds
    rw [List.filterMap_cons]
    cases hsource : dialogSource entry with
    | skipped =>
      rw [hsource] at hlast
      exact ih hlast
    | fault =>
      rw [hsource] at hlast
      cases hlast
    | dialog dialog =>
      rw [hsource] at hlast
      dsimp only at hlast ⊢
      rcases dialogRound_cases codec onLog md dialog with ⟨-, stored, hround⟩ | ⟨-, hnumbered, hround⟩ |
        ⟨-, hnumbered, stored, hround⟩
      · rw [hround] at hlast
        cases hlast
      · rw [hround] at hlast ⊢
        rw [if_pos hnumbered]
        exact ih hlast
      · rw [hround] at hlast ⊢
        rw [if_neg hnumbered]
        dsimp only at hlast ⊢
        have hdone (called : List DialogEvent) (hcalled : storedIds called = []) :
            storedIds (stored.map .messageToDatabase ++
              .dialogToDatabase (joined codec md dialog) :: called) = [dialog.topMessage] := by
          rw [storedIds_append, storedIds_messages, ← joined_topMessageId]
          exact congrArg (_ :: ·) hcalled
        split at hlast
        · next hstop =>
          rw [if_pos hstop, hdone _ (storedIds_callDialog ..)]
          cases hlast
          exact ⟨by rw [joined_topMessageId]; rfl, fun hresult ↦ absurd hresult (by decide)⟩
        · next hstop =>
          rw [if_neg hstop, storedIds_append, hdone _ (storedIds_callDialog ..)]
          obtain ⟨hhash, hknown⟩ := ih hlast
          refine ⟨?_, fun hresult ↦ congrArg (dialog.topMessage :: ·) (hknown hresult)⟩
          rw [hhash, Option.map_map, joined_topMessageId]
          rfl

/-- An answer is reported with these events and this state left at the end, for some callback. -/
def EndsWith (codec : Codec) (t : TgGetDialogs) (tl : TlDialogsAnswer) (events : List DialogEvent)
    (last : TgGetDialogs) (result : ℤ) : Prop :=
  ∃ onLog callback, tgDialogsFromTl codec onLog callback t (some tl) = (events, some (last, result))

theorem reports_hash {t last : TgGetDialogs} {tl : TlDialogsAnswer} {events : List DialogEvent}
    {result : ℤ} (hreports : EndsWith codec t tl events last result) :
    last.hash = t.hash.map ((storedIds events).foldl updateHash) ∧
      ∀ md, tl.lists = some md → 0 ≤ result → storedIds events = knownIds md md.dialogs := by
  obtain ⟨onLog, callback, hrun⟩ := hreports
  have hlists (start : TgGetDialogs) (md : TlDialogs) (hhash : start.hash = t.hash)
      (hrun : dialogsFromLists codec onLog callback start md = (events, some (last, result))) :
      last.hash = t.hash.map ((storedIds events).foldl updateHash) ∧
        (0 ≤ result → storedIds events = knownIds md md.dialogs) := by
    unfold dialogsFromLists at hrun
    obtain ⟨hevents, hlast⟩ := Prod.mk.inj hrun
    obtain ⟨⟨hash, number⟩, hloop, hend⟩ := Option.map_eq_some_iff.mp hlast
    obtain ⟨rfl, rfl⟩ := Prod.mk.inj hend
    rw [← hevents, ← hhash]
    exact dialogLoop_hash hloop
  have hnone (hrun : ([], some (t, 0)) = (events, some (last, result))) :
      last.hash = t.hash.map ((storedIds events).foldl updateHash) := by
    obtain ⟨rfl, hlast⟩ := Prod.mk.inj hrun
    obtain ⟨rfl, -⟩ := Prod.mk.inj (Option.some.inj hlast)
    cases t.hash <;> rfl
  cases tl with
  | dialogsSlice count md =>
    have hboth := hlists { t with total := count.toInt32 } md rfl hrun
    refine ⟨hboth.1, fun lists hsome ↦ ?_⟩
    obtain rfl := Option.some.inj hsome
    exact hboth.2
  | dialogs md =>
    have hboth := hlists t md rfl hrun
    refine ⟨hboth.1, fun lists hsome ↦ ?_⟩
    obtain rfl := Option.some.inj hsome
    exact hboth.2
  | dialogsNotModified => exact ⟨hnone hrun, fun md hsome ↦ nomatch hsome⟩
  | rpcError error => exact ⟨hnone hrun, fun md hsome ↦ nomatch hsome⟩
  | other id => exact ⟨hnone hrun, fun md hsome ↦ nomatch hsome⟩

variable (codec)

/-- Every step of the hash can be undone, and lists that differ in one number never have the same hash:
neither the numbers by themselves, nor the dialogs that two runs have stored, nor those of two answers
that no callback has cut short. -/
theorem updateHash_detects :
    (∀ msgId, Function.Bijective (updateHash · msgId)) ∧
    (∀ first second : List UInt32, DifferOnce first second →
      ∀ start, first.foldl updateHash start ≠ second.foldl updateHash start) ∧
    ∀ start t t' tl tl' events events' last last' result result',
      t.hash = some start → t'.hash = some start →
      EndsWith codec t tl events last result → EndsWith codec t' tl' events' last' result' →
      (DifferOnce (storedIds events) (storedIds events') → last.hash ≠ last'.hash) ∧
      ∀ md md', tl.lists = some md → tl'.lists = some md' → 0 ≤ result → 0 ≤ result' →
        DifferOnce (knownIds md md.dialogs) (knownIds md' md'.dialogs) →
        last.hash ≠ last'.hash := by
  have hfold (first second : List UInt32) (hdiffer : DifferOnce first second) (start : UInt64) :
      first.foldl updateHash start ≠ second.foldl updateHash start :=
    foldl_ne_of_differOnce updateHash_injective updateHash_msgId_injective hdiffer start
  refine ⟨updateHash_bijective, hfold, ?_⟩
  intro start t t' tl tl' events events' last last' result result' hstart hstart' hrun hrun'
  obtain ⟨hhash, hknown⟩ := reports_hash hrun
  obtain ⟨hhash', hknown'⟩ := reports_hash hrun'
  have hstored (hdiffer : DifferOnce (storedIds events) (storedIds events')) :
      last.hash ≠ last'.hash := by
    rw [hhash, hhash', hstart, hstart']
    exact fun heq ↦ hfold _ _ hdiffer start (Option.some.inj heq)
  refine ⟨hstored, ?_⟩
  intro md md' hlists hlists' hresult hresult' hdiffer
  apply hstored
  rw [hknown md hlists hresult, hknown' md' hlists' hresult']
  exact hdiffer

end Codec

/-- An answer with the dialog of the user 7. -/
def oneUser (topMessage : UInt32) : TlDialogs where
  dialogs := [some (.dialog { userDialog with topMessage := topMessage })]
  messages := []
  chats := []
  users := [some (.user ⟨7, 99, [97], [], none⟩)]

def hashedQuery (count : Int32) (hash : UInt64) : TgGetDialogs := ⟨count, 1, some hash, 0, 0, false⟩

theorem oneUser_reports (topMessage : UInt32) :
    ∃ events, EndsWith plainCodec (hashedQuery 0 0) (.dialogs (oneUser topMessage)) events
      (hashedQuery 1 (updateHash 0 topMessage)) 1 :=
  ⟨_, false, none, rfl⟩

/-- The user has a new message. -/
theorem newMessage_detected :
    Function.Bijective (updateHash · 7) ∧
      [1, 2, 3].foldl updateHash 0 ≠ [1, 5, 3].foldl updateHash 0 ∧
      (hashedQuery 1 (updateHash 0 1)).hash ≠ (hashedQuery 1 (updateHash 0 2)).hash := by
  obtain ⟨events, hreports⟩ := oneUser_reports 1
  obtain ⟨events', hreports'⟩ := oneUser_reports 2
  obtain ⟨hbijective, hfold, hruns⟩ := updateHash_detects plainCodec
  refine ⟨hbijective 7, hfold _ _ (differOnce_of_split (by decide) [1] [3]) 0, ?_⟩
  exact (hruns 0 _ _ _ _ _ _ _ _ _ _ rfl rfl hreports hreports').2 _ _ rfl rfl (by decide)
    (by decide) (differOnce_of_split (by decide) [] [])

end LibTg.Tg

import LibTg.Tg.Updates

/-!
# Only real messages

`parse_msgs` and `tg_do_update` store and report their local `tg_message_t` whatever the conversion
has done. The variable has been assigned for the constructors `message` and `messageService` only, so
what is stored is right as long as no other object stands among the messages.
-/

namespace LibTg.Tg

open LibTg.Tl

section Real

variable (codec : Codec) (callback : Option MessageCallback)

/-- An entry is converted: it is a `message` or `messageService`, and no pointer in it that the
conversion follows is null. -/
def ConvertsTo (entry : Option TlAnyMessage) (tgm : TgMessageT) : Prop :=
  ∃ tlm, entry = some tlm ∧ tlm.convert codec = some tgm

/-- An entry with one of the two constructors. -/
def IsMessage : Option TlAnyMessage → Prop
  | some (.message _) => True
  | some (.messageService _) => True
  | _ => False

instance (entry : Option TlAnyMessage) : Decidable (IsMessage entry) := by
  unfold IsMessage
  split <;> infer_instance

/-- The reports that a list of entries should have, with the number of calls of the callback so far:
every message is stored and handed to the callback, up to the message at which the callback stops,
and nothing is done for any other entry. -/
inductive Expected : ℕ → List (Option TlAnyMessage) → List Report → Prop
  | nil (count : ℕ) : Expected count [] []
  | skip {count : ℕ} {entry : Option TlAnyMessage} {argv : List (Option TlAnyMessage)}
      {reports : List Report} (hentry : ¬ IsMessage entry) (hrest : Expected count argv reports) :
      Expected count (entry :: argv) reports
  | last {count : ℕ} {entry : Option TlAnyMessage} {argv : List (Option TlAnyMessage)}
      {tgm : TgMessageT} (hconvert : ConvertsTo codec entry tgm)
      (hstop : (callCallback callback count (some tgm)).2 = true) :
      Expected count (entry :: argv)
        (.toDatabase (some tgm) :: (callCallback callback count (some tgm)).1)
  | next {count : ℕ} {entry : Option TlAnyMessage} {argv : List (Option TlAnyMessage)}
      {tgm : TgMessageT} {reports : List Report} (hconvert : ConvertsTo codec entry tgm)
      (hgo : (callCallback callback count (some tgm)).2 = false)
      (hrest : Expected (count + 1) argv reports) :
      Expected count (entry :: argv)
        (.toDatabase (some tgm) :: (callCallback callback count (some tgm)).1 ++ reports)

/-- An answer is dealt with as it should be. -/
def ReportsMessages (tl : TlMessages) : Prop :=
  ∃ reports count, parseTl codec callback (some tl) = some (reports, count) ∧
    Expected codec callback 0 tl.entries reports

/-- An `updateNewMessage` is dealt with as it should be. -/
def ReportsNewMessage (message : Option TlAnyMessage) : Prop :=
  if IsMessage message then
    ∃ tgm, ConvertsTo codec message tgm ∧
      tgDoUpdate codec (.newMessage message) = some [.toDatabase (some tgm), .onUpdate (some tgm)]
  else tgDoUpdate codec (.newMessage message) = some []

/-- The entries that are visited are null pointers or are converted; the callback may stop before the
others. -/
def OnlyMessages : ℕ → List (Option TlAnyMessage) → Prop
  | _, [] => True
  | count, none :: argv => OnlyMessages count argv
  | count, some tlm :: argv =>
    ∃ tgm, tlm.convert codec = some tgm ∧
      ((callCallback callback count (some tgm)).2 = true ∨ OnlyMessages (count + 1) argv)

variable {codec callback}

theorem isMessage_of_convert {tlm : TlAnyMessage} {tgm : TgMessageT}
    (hconvert : tlm.convert codec = some tgm) : IsMessage (some tlm) := by
  cases tlm with
  | message tlm => trivial
  | messageService tlm => trivial
  | other id => cases hconvert

/-- What the variable holds after the conversion of one of the two constructors. -/
theorem tgMessageFromTlUnknown_of_isMessage {tlm : TlAnyMessage} (hmessage : IsMessage (some tlm))
    (tgm : Option TgMessageT) :
    tgMessageFromTlUnknown codec tgm (some tlm) = (tlm.convert codec).map some := by
  cases tlm with
  | message tlm => rfl
  | messageService tlm => rfl
  | other number => exact hmessage.elim

theorem tgMessageFromTlUnknown_of_other {entry : Option TlAnyMessage} (hother : ¬ IsMessage entry)
    (tgm : Option TgMessageT) : tgMessageFromTlUnknown codec tgm entry = some tgm := by
  cases entry with
  | none => rfl
  | some tlm =>
    cases tlm with
    | message tlm => exact absurd trivial hother
    | messageService tlm => exact absurd trivial hother
    | other id => rfl

/-! ## One entry -/

theorem parseMsgsFrom_of_other {index count : ℕ} {tlm : TlAnyMessage}
    {argv : List (Option TlAnyMessage)} (hother : ¬ IsMessage (some tlm))
    {reports : List Report} {last : ℕ}
    (hparse : parseMsgsFrom codec callback index count (some tlm :: argv) = some (reports, last)) :
    .toDatabase none ∈ reports := by
  rw [parseMsgsFrom, tgMessageFromTlUnknown_of_other hother, Option.bind_eq_bind,
    Option.bind_some] at hparse
  dsimp only at hparse
  split at hparse
  · cases hparse
    exact List.mem_cons_self
  · rw [Option.bind_eq_bind, Option.bind_eq_some_iff] at hparse
    obtain ⟨rest, -, hreports⟩ := hparse
    cases hreports
    exact List.mem_cons_self

/-- A message that is converted. -/
theorem parseMsgsFrom_of_convert {index count : ℕ} {tlm : TlAnyMessage} {tgm : TgMessageT}
    {argv : List (Option TlAnyMessage)} (hconvert : tlm.convert codec = some tgm) :
    parseMsgsFrom codec callback index count (some tlm :: argv) =
      let called := callCallback callback count (some tgm)
      if called.2 then some (.toDatabase (some tgm) :: called.1, index)
      else
        (parseMsgsFrom codec callback (index + 1) (count + 1) argv).map fun rest ↦
          (.toDatabase (some tgm) :: called.1 ++ rest.1, rest.2) := by
  rw [parseMsgsFrom, tgMessageFromTlUnknown_of_isMessage (isMessage_of_convert hconvert), hconvert,
    Option.map_some, Option.bind_eq_bind, Option.bind_some]
  dsimp only
  split
  · rfl
  · rw [Option.bind_eq_bind, Option.map_eq_bind]
    rfl

/-- A message that is not converted. -/
theorem parseMsgsFrom_of_fault {index count : ℕ} {tlm : TlAnyMessage}
    {argv : List (Option TlAnyMessage)} (hmessage : IsMessage (some tlm))
    (hfault : tlm.convert codec = none) :
    parseMsgsFrom codec callback index count (some tlm :: argv) = none := by
  rw [parseMsgsFrom, tgMessageFromTlUnknown_of_isMessage hmessage, hfault]
  rfl

/-- A report that does not read a variable that has not been assigned. -/
def Report.Assigned : Report → Prop
  | .toDatabase tgm => tgm.isSome
  | .callback tgm => tgm.isSome
  | .onUpdate tgm => tgm.isSome
  | .onChatUpdate _ tgm => tgm.isSome

theorem assigned_callCallback (count : ℕ) (tgm : TgMessageT) :
    ∀ report ∈ (callCallback callback count (some tgm)).1, report.Assigned := by
  intro report hreport
  cases callback with
  | none => exact absurd hreport List.not_mem_nil
  | some callback =>
    rw [List.mem_singleton.mp hreport]
    rfl

/-- Nothing that should be done reads a variable that has not been assigned. -/
theorem Expected.assigned {count : ℕ} {argv : List (Option TlAnyMessage)} {reports : List Report}
    (hexpected : Expected codec callback count argv reports) :
    ∀ report ∈ reports, report.Assigned := by
  induction hexpected with
  | nil count => exact fun _ h ↦ absurd h List.not_mem_nil
  | skip hentry hrest ih => exact ih
  | @last count entry argv tgm hconvert hstop =>
    rw [List.forall_mem_cons]
    exact ⟨rfl, assigned_callCallback count tgm⟩
  | @next count entry argv tgm reports hconvert hgo hrest ih =>
    rw [List.cons_append, List.forall_mem_cons]
    refine ⟨rfl, fun report hreport ↦ ?_⟩
    rcases List.mem_append.mp hreport with hcalled | hlater
    · exact assigned_callCallback count tgm report hcalled
    · exact ih report hlater

/-! ## The loop -/

/-- Among nothing but messages the loop does what it should. -/
theorem expected_of_onlyMessages {argv : List (Option TlAnyMessage)} (index count : ℕ)
    (honly : OnlyMessages codec callback count argv) :
    ∃ reports last, parseMsgsFrom codec callback index count argv = some (reports, last) ∧
      Expected codec callback count argv reports := by
  induction argv generalizing index count with
  | nil => exact ⟨[], index, rfl, .nil count⟩
  | cons entry argv ih =>
    cases entry with
    | none =>
      obtain ⟨reports, last, hparse, hexpected⟩ := ih (index + 1) count honly
      exact ⟨reports, last, hparse, .skip id hexpected⟩
    | some tlm =>
      obtain ⟨tgm, hconvert, hrest⟩ := honly
      have hconverts : ConvertsTo codec (some tlm) tgm := ⟨tlm, rfl, hconvert⟩
      rw [parseMsgsFrom_of_convert hconvert]
      by_cases hstop : (callCallback callback count (some tgm)).2 = true
      · exact ⟨_, _, if_pos hstop, .last hconverts hstop⟩
      · obtain ⟨reports, last, hparse, hexpected⟩ :=
          ih (index + 1) (count + 1) (hrest.resolve_left hstop)
        refine ⟨.toDatabase (some tgm) :: (callCallback callback count (some tgm)).1 ++ reports, last,
          ?_, .next hconverts (Bool.eq_false_iff.mpr hstop) hexpected⟩
        dsimp only
        rw [if_neg hstop, hparse]
        rfl

/-- Where the loop does what it should, there is nothing but messages. -/
theorem onlyMessages_of_expected {argv : List (Option TlAnyMessage)} {index count last : ℕ}
    {reports : List Report}
    (hparse : parseMsgsFrom codec callback index count argv = some (reports, last))
    (hexpected : Expected codec callback count argv reports) :
    OnlyMessages codec callback count argv := by
  induction argv generalizing index count reports with
  | nil => trivial
  | cons entry argv ih =>
    cases entry with
    | none =>
      cases hexpected with
      | skip hentry hrest => exact ih hparse hrest
      | last hconvert hstop => obtain ⟨tlm, h, -⟩ := hconvert; cases h
      | next hconvert hgo hrest => obtain ⟨tlm, h, -⟩ := hconvert; cases h
    | some tlm =>
      by_cases hmessage : IsMessage (some tlm)
      · cases hconvert : tlm.convert codec with
        | none =>
          rw [parseMsgsFrom_of_fault hmessage hconvert] at hparse
          cases hparse
        | some tgm =>
          refine ⟨tgm, hconvert, ?_⟩
          rw [parseMsgsFrom_of_convert hconvert] at hparse
          dsimp only at hparse
          by_cases hstop : (callCallback callback count (some tgm)).2 = true
          · exact .inl hstop
          · refine .inr ?_
            rw [if_neg hstop, Option.map_eq_some_iff] at hparse
            obtain ⟨⟨rest, last'⟩, hrest, heq⟩ := hparse
            cases heq
            have hsame {other : TgMessageT} (hother : ConvertsTo codec (some tlm) other) :
                other = tgm := by
              obtain ⟨tlm', h, hother⟩ := hother
              cases h
              rw [hconvert] at hother
              exact (Option.some.inj hother).symm
            generalize hwhole : (Report.toDatabase (some tgm) ::
              (callCallback callback count (some tgm)).1 ++ rest) = whole at hexpected
            cases hexpected with
            | skip hentry _ => exact absurd hmessage hentry
            | last hconvert' hstop' =>
              rw [hsame hconvert'] at hstop'
              exact absurd hstop' hstop
            | next hconvert' hgo hlater =>
              rw [hsame hconvert', List.append_cancel_left_eq] at hwhole
              exact ih hrest (hwhole ▸ hlater)
      · have hmem := parseMsgsFrom_of_other hmessage hparse
        exact absurd (hexpected.assigned _ hmem) (by simp [Report.Assigned])

/-- An answer is dealt with as it should be if and only if the entries that are visited are null or
converted. -/
theorem reportsMessages_iff (tl : TlMessages) :
    ReportsMessages codec callback tl ↔ OnlyMessages codec callback 0 tl.entries := by
  unfold ReportsMessages
  constructor
  · rintro ⟨reports, count, hreports, hexpected⟩
    cases tl with
    | other number => trivial
    | channelMessages entries => exact onlyMessages_of_expected hreports hexpected
    | messages entries => exact onlyMessages_of_expected hreports hexpected
    | messagesSlice entries => exact onlyMessages_of_expected hreports hexpected
  · intro honly
    cases tl with
    | other number => exact ⟨[], 0, rfl, .nil 0⟩
    | channelMessages entries => exact expected_of_onlyMessages 0 0 honly
    | messages entries => exact expected_of_onlyMessages 0 0 honly
    | messagesSlice entries => exact expected_of_onlyMessages 0 0 honly

/-- An `updateNewMessage` is dealt with as it should be if and only if it has a message that is
converted. -/
theorem reportsNewMessage_iff (message : Option TlAnyMessage) :
    ReportsNewMessage codec message ↔ ∃ tgm, ConvertsTo codec message tgm := by
  unfold ReportsNewMessage
  by_cases hmessage : IsMessage message
  · rw [if_pos hmessage]
    constructor
    · rintro ⟨tgm, hconvert, -⟩
      exact ⟨tgm, hconvert⟩
    · rintro ⟨tgm, tlm, rfl, hconvert⟩
      refine ⟨tgm, ⟨tlm, rfl, hconvert⟩, ?_⟩
      rw [tgDoUpdate, tgMessageFromTlUnknown_of_isMessage hmessage, hconvert]
      rfl
  · rw [if_neg hmessage, tgDoUpdate, tgMessageFromTlUnknown_of_other hmessage]
    refine iff_of_false (fun h ↦ by cases h) ?_
    rintro ⟨tgm, tlm, rfl, hconvert⟩
    exact hmessage (isMessage_of_convert hconvert)

end Real

/-- Only real messages are stored and reported if and only if the entries of an answer that are
visited are null or converted, and the message of an update is converted. -/
theorem only_messages_iff (codec : Codec) (callback : Option MessageCallback) :
    (∀ tl, ReportsMessages codec callback tl ↔ OnlyMessages codec callback 0 tl.entries) ∧
      ∀ message, ReportsNewMessage codec message ↔ ∃ tgm, ConvertsTo codec message tgm :=
  ⟨reportsMessages_iff, reportsNewMessage_iff⟩

/-- A `messageEmpty` in an answer, and in an update. -/
theorem not_reports_messageEmpty :
    ¬ (ReportsMessages plainCodec none (.messages [some (.other 0x90a6ca84)]) ∧
      ReportsNewMessage plainCodec (some (.other 0x90a6ca84))) := by
  rw [reportsMessages_iff]
  rintro ⟨⟨tgm, hconvert, -⟩, -⟩
  cases hconvert

end LibTg.Tg

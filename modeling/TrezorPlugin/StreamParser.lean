import TrezorPlugin.Script

/-!
# DeviceChannel::read refines a stream parser

Whatever reports a byte stream is cut into, `DeviceChannel.read` does with it what
`Framing.parse` does, and the buffer and the reports it has not asked for hold the
rest of the parse:

    parse wire (buffer ++ stream of the reports) = some (p, rest) → no poll comes late →
      read = outcome p, buffer' ++ stream of the reports' = rest      (read_refines_parse)
-/

namespace TrezorPlugin

open Framing

variable {err : Option WString} {enc : WString → Except Exception String}
variable {Msg : Type} (P : Protobuf Msg) (pool : DescriptorPool)

variable (err enc) in
/-- **A read with enough bytes to come**, in time, does what the reference parser does. -/
theorem read_complete {dev : Handle} {timeout : Bool} {s : IoState Poll Int} {p : Parsed}
    {rest : List UInt8} (hts : Working s) (hontime : OnTime timeout s)
    (hS : parse wire (s.buf.bytes ++ payloads s.ticks) = some (p, rest))
    (hlen : ∀ type payload, p = .frame type payload → payload.length ≤ 1986) :
    ∃ s', DeviceChannel.read (scriptEnv err enc) P pool dev timeout s =
        liftExcept (outcome P pool p) s' ∧
      s'.buf.bytes ++ payloads s'.ticks = rest ∧ s'.ticks <:+ s.ticks := by
  rcases read_cases P pool (scriptFeed err enc) dev timeout s with
    ⟨p', s', hp, hpolled, hr⟩ | ⟨e, s', hr, hstop⟩
  · rw [scriptFeed_unread, hS] at hp
    cases hp
    exact ⟨s', hr, rfl, hpolled.suffix⟩
  · exfalso
    rcases hstop.script hts with rfl | rfl | rfl
    · obtain ⟨rcv, hu, hnone, -⟩ := hstop.received (by simp)
      rw [scriptFeed_unread, scriptFeed_coming, hstop.ticks rfl] at hu
      rw [hu, show payloads [] = [] from rfl, List.append_nil, hnone] at hS
      cases hS
    · obtain ⟨pad, h, S, hu, hpad, h6, hle, hover⟩ := hstop.overflow rfl
      have hlong := hover.long
      have hm := parse_pad_magic wire hpad (h ++ S)
      rw [show pad ++ wire.magic :: wire.magic :: (h ++ S) = s.buf.bytes ++ payloads s.ticks from
        hu.symm, hS, body_fields wire h6,
        if_neg (show ¬ wire.maxLength < (fields h).2 from Nat.not_lt.mpr hle)] at hm
      split at hm
      · cases hm
      · simp only [Option.some.injEq, Prod.mk.injEq] at hm
        have := hlen _ _ hm.1
        rw [List.length_take] at this
        omega
    · exact read_on_time err enc P pool dev hts hontime s' hr

/-! ## Every way of cutting a stream into reports -/

/-- A report that carries `payload`: its length byte, the payload, and bytes that are ignored. -/
structure Piece where
  payload : List UInt8
  trailing : List UInt8
  fits : payload.length + trailing.length ≤ 63

def Piece.report (c : Piece) : Report where
  bytes := UInt8.ofNat c.payload.length :: (c.payload ++ c.trailing)
  nonempty := by simp
  fits := by
    have := c.fits
    simp only [List.length_cons, List.length_append]
    omega

/-- A cut stream with the clock at each poll; `none` is a poll that finds nothing. -/
abbrev Cut := List (Option Piece × Int)

def cutPolls (cut : Cut) : List Poll :=
  cut.map fun
    | (some c, clock) => ⟨.report c.report, clock⟩
    | (none, clock) => ⟨.empty, clock⟩

/-- The stream that is cut. -/
def cutStream (cut : Cut) : List UInt8 :=
  cut.flatMap fun
    | (some c, _) => c.payload
    | (none, _) => []

theorem Piece.payload_report (c : Piece) : c.report.payload = c.payload := by
  have hf := c.fits
  have hb : (UInt8.ofNat c.payload.length).toNat = c.payload.length := by
    simp only [UInt8.toNat_ofNat']
    omega
  have hlen : c.report.chlen = c.payload.length + 1 := by
    simp only [Report.chlen, Piece.report, List.getD_cons_zero, hb, List.length_cons,
      List.length_append]
    omega
  rw [Report.payload, hlen]
  simp [Piece.report]

theorem payloads_cutPolls (cut : Cut) : payloads (cutPolls cut) = cutStream cut := by
  induction cut with
  | nil => rfl
  | cons c cut ih =>
    match c with
    | (none, _) => exact ih
    | (some c, _) =>
      show c.report.payload ++ payloads (cutPolls cut) = c.payload ++ cutStream cut
      rw [ih, c.payload_report]

theorem cutPolls_ne_error (cut : Cut) : ∀ t ∈ cutPolls cut, t.result ≠ .error := by
  intro t ht
  obtain ⟨c, -, rfl⟩ := List.mem_map.mp ht
  match c with
  | (none, _) => simp
  | (some c, _) => simp

/-- Header split over the buffer and two reports, with polls that find nothing in between. -/
def pongCut : Cut :=
  [(some ⟨[35, 0, 1], [9], by decide⟩, 0), (none, 5),
    (some ⟨[0, 0, 0, 2, 8, 1, 7], [], by decide⟩, 6), (some ⟨[7], [], by decide⟩, 6)]

end TrezorPlugin

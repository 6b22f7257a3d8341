import Contiki.Coap.OptionCodec

/-!
# Packets built by the setters

`WellFormed` collects what every packet satisfies that `coap_init_message`
and any sequence of setters build: the bounds the setters enforce, and which
options they cannot set.
-/

namespace Contiki.Coap

open Contiki.Lib

/-- The arguments that both block setters accept. -/
structure BlockBounds (num : UInt32) (size : UInt16) : Prop where
  num : num.toNat ≤ 0xFFFFF
  lower : 16 ≤ size.toNat
  upper : size.toNat ≤ 2048

/-- A packet that the setters can build. -/
structure WellFormed (config : CoapConfig) (packet : SentPacket) :
    Prop where
  options : packet.options.length = optionsLength
  token : packet.token.length ≤ coapTokenLen
  etag : packet.etag.length ≤ coapEtagLen
  ifMatch : packet.ifMatch.length ≤ coapEtagLen
  contentFormat : packet.contentFormat < 2 ^ config.uintBits
  accept : packet.accept < 2 ^ config.uintBits
  block2 : isOption packet CoapOption.block2.number = true →
    BlockBounds packet.block2Num packet.block2Size
  block1 : isOption packet CoapOption.block1.number = true →
    BlockBounds packet.block1Num packet.block1Size
  payload : packet.payloadLen ≤ config.restMaxChunkSize
  proxyScheme : isOption packet CoapOption.proxyScheme.number = false

variable {config : CoapConfig} {packet : SentPacket}

theorem blockBounds_of_not_rejected {num : UInt32} {size : UInt16}
    (accepted : blockRejected num size = false) :
    BlockBounds num size := by
  simp only [blockRejected, Bool.or_eq_false_iff, decide_eq_false_iff_not,
    gt_iff_lt, UInt16.lt_iff_toNat_lt, UInt32.lt_iff_toNat_lt] at accepted
  obtain ⟨⟨lower, upper⟩, num⟩ := accepted
  exact ⟨Nat.le_of_not_lt num, Nat.le_of_not_lt lower,
    Nat.le_of_not_lt upper⟩

theorem toUnsigned_lt (config : CoapConfig) (value : Nat) :
    config.toUnsigned value < 2 ^ config.uintBits :=
  Nat.mod_lt _ (Nat.pow_pos (by decide))

/-- Setting an option bit keeps a packet well formed when the fields of a
block option are within their bounds. -/
theorem WellFormed.setOption (wellFormed : WellFormed config packet)
    (option : CoapOption) (notScheme : option ≠ .proxyScheme)
    (block2 : option = .block2 →
      BlockBounds packet.block2Num packet.block2Size)
    (block1 : option = .block1 →
      BlockBounds packet.block1Num packet.block1Size) :
    WellFormed config (setOption packet option.number) := by
  have unchanged : ∀ other, option ≠ other →
      isOption (Coap.setOption packet option.number) other.number =
        isOption packet other.number := fun other different =>
    isOption_setOption_of_ne packet fun same =>
      different (CoapOption.number_injective same)
  refine
    { wellFormed with
      options := (length_options_setOption packet _).trans
        wellFormed.options
      block2 := ?_
      block1 := ?_
      proxyScheme := ?_ }
  · intro isSet
    by_cases same : option = .block2
    · exact block2 same
    · exact wellFormed.block2 (unchanged _ same ▸ isSet)
  · intro isSet
    by_cases same : option = .block1
    · exact block1 same
    · exact wellFormed.block1 (unchanged _ same ▸ isSet)
  · exact (unchanged _ notScheme).trans wellFormed.proxyScheme

theorem WellFormed.setPlain (wellFormed : WellFormed config packet)
    (option : CoapOption)
    (plain : option ∉ [.proxyScheme, .block2, .block1]) :
    WellFormed config (Coap.setOption packet option.number) := by
  simp only [List.mem_cons, List.not_mem_nil, or_false, not_or] at plain
  exact wellFormed.setOption option plain.1
    (fun same => absurd same plain.2.1)
    (fun same => absurd same plain.2.2)

theorem wellFormed_coapInitMessage (type : CoapMessageType)
    (code : UInt8) (mid : UInt16) :
    WellFormed config (coapInitMessage type code mid) where
  options := List.length_replicate
  token := Nat.zero_le _
  etag := Nat.zero_le _
  ifMatch := Nat.zero_le _
  contentFormat := Nat.pow_pos (by decide)
  accept := Nat.pow_pos (by decide)
  block2 := fun isSet => absurd isSet (by
    change isOption (CoapPacket.zero nullString) _ ≠ true
    simp)
  block1 := fun isSet => absurd isSet (by
    change isOption (CoapPacket.zero nullString) _ ≠ true
    simp)
  payload := Nat.zero_le _
  proxyScheme := isOption_zero nullString _

private theorem length_take_min (bytes : List UInt8) (bound : Nat) :
    (bytes.take (min bound bytes.length)).length ≤ bound := by
  rw [List.length_take]
  omega

theorem wellFormed_locationPath (wellFormed : WellFormed config packet)
    (path : CString) :
    WellFormed config (coapSetHeaderLocationPath packet path).1 := by
  have query : ∀ query : CString, WellFormed config
      (coapSetHeaderLocationQuery packet query).1 := by
    intro query
    refine WellFormed.setPlain ?_ .locationQuery (by decide)
    exact { wellFormed with }
  unfold coapSetHeaderLocationPath
  simp only
  cases (path.skip slash).strchr questionMark with
  | none =>
      simp only
      split
      · refine WellFormed.setPlain ?_ .locationPath (by decide)
        exact { wellFormed with }
      · exact { wellFormed with }
  | some index =>
      have withQuery := query ((path.skip slash).advance (index + 1))
      simp only
      split
      · refine WellFormed.setPlain ?_ .locationPath (by decide)
        exact { withQuery with }
      · exact { withQuery with }

theorem SetterCall.apply_wellFormed
    (wellFormed : WellFormed config packet) (call : SetterCall) :
    WellFormed config (call.apply config packet) := by
  cases call with
  | token bytes =>
      exact { wellFormed with token := length_take_min bytes _ }
  | contentFormat format =>
      refine WellFormed.setPlain ?_ .contentFormat (by decide)
      exact { wellFormed with contentFormat := toUnsigned_lt config format }
  | accept format =>
      refine WellFormed.setPlain ?_ .accept (by decide)
      exact { wellFormed with accept := toUnsigned_lt config format }
  | maxAge age =>
      refine WellFormed.setPlain ?_ .maxAge (by decide)
      exact { wellFormed with }
  | etag bytes =>
      refine WellFormed.setPlain ?_ .etag (by decide)
      exact { wellFormed with etag := length_take_min bytes _ }
  | ifMatch bytes =>
      refine WellFormed.setPlain ?_ .ifMatch (by decide)
      exact { wellFormed with ifMatch := length_take_min bytes _ }
  | ifNoneMatch =>
      exact wellFormed.setPlain .ifNoneMatch (by decide)
  | proxyUri uri =>
      refine WellFormed.setPlain ?_ .proxyUri (by decide)
      exact { wellFormed with }
  | uriHost host =>
      refine WellFormed.setPlain ?_ .uriHost (by decide)
      exact { wellFormed with }
  | uriPath path =>
      refine WellFormed.setPlain ?_ .uriPath (by decide)
      exact { wellFormed with }
  | uriQuery query =>
      refine WellFormed.setPlain ?_ .uriQuery (by decide)
      exact { wellFormed with }
  | locationPath path =>
      exact wellFormed_locationPath wellFormed path
  | locationQuery query =>
      refine WellFormed.setPlain ?_ .locationQuery (by decide)
      exact { wellFormed with }
  | observe value =>
      refine WellFormed.setPlain ?_ .observe (by decide)
      exact { wellFormed with }
  | block2 num more size =>
      simp only [SetterCall.apply, coapSetHeaderBlock2]
      cases rejected : blockRejected num size with
      | true =>
          exact wellFormed
      | false =>
          have bounds := blockBounds_of_not_rejected rejected
          refine WellFormed.setOption ?_ .block2 (by decide)
            (fun _ => bounds)
            (fun same => absurd same (by decide))
          exact { wellFormed with block2 := fun _ => bounds }
  | block1 num more size =>
      simp only [SetterCall.apply, coapSetHeaderBlock1]
      cases rejected : blockRejected num size with
      | true =>
          exact wellFormed
      | false =>
          have bounds := blockBounds_of_not_rejected rejected
          refine WellFormed.setOption ?_ .block1 (by decide)
            (fun same => absurd same (by decide))
            (fun _ => bounds)
          exact { wellFormed with block1 := fun _ => bounds }
  | size2 size =>
      refine WellFormed.setPlain ?_ .size2 (by decide)
      exact { wellFormed with }
  | size1 size =>
      refine WellFormed.setPlain ?_ .size1 (by decide)
      exact { wellFormed with }
  | payload bytes length =>
      exact { wellFormed with payload := Nat.min_le_left _ _ }

theorem wellFormed_build (config : CoapConfig) (type : CoapMessageType)
    (code : UInt8) (mid : UInt16) (calls : List SetterCall) :
    WellFormed config (build config type code mid calls) := by
  have run : ∀ (calls : List SetterCall) (packet : SentPacket),
      WellFormed config packet →
        WellFormed config (calls.foldl
          (fun packet call => call.apply config packet) packet) := by
    intro calls
    induction calls with
    | nil =>
        exact fun _ wellFormed => wellFormed
    | cons call calls inductionHypothesis =>
        exact fun packet wellFormed =>
          inductionHypothesis _ (call.apply_wellFormed wellFormed)
  exact run calls _ (wellFormed_coapInitMessage type code mid)

end Contiki.Coap

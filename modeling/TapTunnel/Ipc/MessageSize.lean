import TapTunnel.Ipc.ReaderSync

namespace TapTunnel.Ipc

open Framework

/-- The messages that the library sends: frames of its device, and commands. -/
inductive Emitted (J : Serde ProxyCommand) (mtu : UInt16) : Bytes → Prop
  | frame (frame : Bytes) (h : frame.length ≤ maxFrameSize mtu) : Emitted J mtu (encodeFrame frame)
  | control (command : ProxyCommand) : Emitted J mtu (encodeControl J command)

/-- Task 3 of `run_frame_relay` takes the length of the message. -/
structure MessageFits (mtu : UInt16) (m : Bytes) : Prop where
  lower : 1 ≤ m.length
  upper : m.length ≤ relayLimit mtu
  taken : (relayFit m.length (List.replicate (relayLimit mtu) 0)).isSome = true

theorem messageFits_of_le {mtu : UInt16} {m : Bytes} (h0 : 1 ≤ m.length)
    (h : m.length ≤ relayLimit mtu) : MessageFits mtu m := by
  have hne : m ≠ [] := List.ne_nil_of_length_pos h0
  obtain ⟨buf, hbuf, -⟩ := relayFit_admit hne h List.length_replicate
  exact ⟨h0, h, by rw [hbuf]; rfl⟩

section Lengths

theorem numeral_u64_length_le (n : UInt64) : (numeral 10 n.toNat).length ≤ 20 := by
  have hlt := UInt64.toNat_lt n
  exact numeral_length_le (by decide) (by decide) (by omega)

theorem numeral_u8_length_le (n : UInt8) : (numeral 10 n.toNat).length ≤ 3 := by
  have hlt := UInt8.toNat_lt n
  exact numeral_length_le (by decide) (by decide) (by omega)

/-- The longest command removes a route to an address of 39 characters. -/
theorem encodeControl_length_le (command : ProxyCommand) :
    (encodeControl compactJson.command command).length ≤ 121 := by
  have hcmd : (quote (ascii "cmd")).length = 5 := by decide
  have hadd : (quote (ascii "AddRoute")).length = 10 := by decide
  have hremove : (quote (ascii "RemoveRoute")).length = 13 := by decide
  have hstats : (quote (ascii "GetIfaceStats")).length = 15 := by decide
  have hid : (quote (ascii "id")).length = 4 := by decide
  have hdest : (quote (ascii "destination")).length = 13 := by decide
  have hplen : (quote (ascii "prefix_len")).length = 12 := by decide
  change (msgTypeControl::command.toJson.render).length ≤ 121
  cases command with
  | addRoute id destination prefixLen =>
    have h1 := numeral_u64_length_le id
    have h2 := quote_ipText_length_le destination
    have h3 := numeral_u8_length_le prefixLen
    simp only [ProxyCommand.toJson, object, u64Json, List.foldr_cons, List.foldr_nil, Json.render,
      Members.render, List.length_append, List.length_cons, List.length_nil, if_true,
      Bool.false_eq_true, if_false, hcmd, hadd, hid, hdest, hplen]
    omega
  | removeRoute id destination prefixLen =>
    have h1 := numeral_u64_length_le id
    have h2 := quote_ipText_length_le destination
    have h3 := numeral_u8_length_le prefixLen
    simp only [ProxyCommand.toJson, object, u64Json, List.foldr_cons, List.foldr_nil, Json.render,
      Members.render, List.length_append, List.length_cons, List.length_nil, if_true,
      Bool.false_eq_true, if_false, hcmd, hremove, hid, hdest, hplen]
    omega
  | getIfaceStats id =>
    have h1 := numeral_u64_length_le id
    simp only [ProxyCommand.toJson, object, u64Json, List.foldr_cons, List.foldr_nil, Json.render,
      Members.render, List.length_append, List.length_cons, List.length_nil, if_true,
      Bool.false_eq_true, if_false, hcmd, hstats, hid]
    omega

end Lengths

/-- A command of the greatest length. -/
def longestCommand : ProxyCommand :=
  .removeRoute 0xffffffffffffffff (.v6 0xfd001111222233334444555566667777) 128

theorem longestCommand_length :
    (encodeControl compactJson.command longestCommand).length = 121 := by
  decide +kernel

/-- Every frame of the device fits the buffer of the proxy, whatever the MTU. Every command does
so exactly from an MTU of 91 on, as the buffer is sized for frames only. -/
theorem emitted_fits_iff (mtu : UInt16) :
    (∀ frame : Bytes, frame.length ≤ maxFrameSize mtu → MessageFits mtu (encodeFrame frame)) ∧
    ((∀ m, Emitted compactJson.command mtu m → MessageFits mtu m) ↔ 91 ≤ mtu.toNat) := by
  have hframe : ∀ frame : Bytes, frame.length ≤ maxFrameSize mtu →
      MessageFits mtu (encodeFrame frame) := by
    intro frame hlen
    apply messageFits_of_le
    · simp [encodeFrame]
    · simp only [encodeFrame, relayLimit, List.length_cons]
      omega
  refine ⟨hframe, ?_, ?_⟩
  · intro hall
    have hfit := (hall _ (.control longestCommand)).upper
    rw [longestCommand_length] at hfit
    simp only [relayLimit, maxFrameSize, ethernetHeaderSize] at hfit
    omega
  · intro hmtu m hm
    cases hm with
    | frame frame hlen => exact hframe frame hlen
    | control command =>
      have hle := encodeControl_length_le command
      apply messageFits_of_le
      · simp [encodeControl]
      · simp only [relayLimit, maxFrameSize, ethernetHeaderSize]
        omega

/-- With the MTU of Ethernet everything fits. -/
theorem emitted_fits_iff_ethernet :
    ∀ m, Emitted compactJson.command 1500 m → MessageFits 1500 m :=
  (emitted_fits_iff 1500).2.mpr (by decide)

/-- With the least MTU of IPv4 the proxy refuses the first route to an address that is written
out, which is valid and one byte too long. -/
theorem short_mtu_refuses_command :
    Emitted compactJson.command 68
      (encodeControl compactJson.command
        (.addRoute 1 (.v6 0xfd001111222233334444555566667777) 128)) ∧
    (encodeControl compactJson.command
      (.addRoute 1 (.v6 0xfd001111222233334444555566667777) 128)).length = relayLimit 68 + 1 ∧
    relayFit (encodeControl compactJson.command
      (.addRoute 1 (.v6 0xfd001111222233334444555566667777) 128)).length
      (List.replicate (relayLimit 68) 0) = none :=
  ⟨.control _, by decide +kernel, by decide +kernel⟩

end TapTunnel.Ipc

import TapTunnel.Stack.Entries

namespace TapTunnel.Stack

open Framework

variable {T U E : Type} {N : Smoltcp T U E}

/-- What one call of `process_tcp_write` guarantees when `data` is the accepted prefix
followed by everything that was waiting. -/
structure PassSpec (data : Bytes) (r : WriteOut T) : Prop where
  stream : r.accepted ++ (r.pendingWrite.getD [] ++ r.writeRx.queue.flatten) = data
  nonempty : r.pendingWrite ≠ some []
  noError : r.exit ≠ .pendingError ∧ r.exit ≠ .chunkError
  drained : r.exit = .disconnected → r.pendingWrite = none ∧ r.writeRx.queue = []

theorem sendSlice_eq (hN : N.SendContract) {s : T} (hs : N.maySend s = true) (data : Bytes) :
    N.sendSlice s data = (.ok (min data.length (N.txFree s)), (N.sendSlice s data).2) :=
  Prod.ext (hN.send_ok s data hs) rfl

theorem drop_ne_nil {data : Bytes} {n : Nat} (h : n < data.length) :
    some (data.drop n) ≠ some [] := by
  intro he
  have := List.drop_eq_nil_iff.mp (Option.some.inj he)
  omega

theorem append_take_drop (acc data rest : Bytes) (n : Nat) :
    acc ++ data.take n ++ (data.drop n ++ rest) = acc ++ (data ++ rest) := by
  rw [List.append_assoc, ← List.append_assoc (data.take n), List.take_append_drop]

/-- The loop over the queued chunks, for a socket in any state. -/
theorem pullWrites_spec (hN : N.SendContract) (rx : Chan Bytes) (q : List Bytes) (s : T)
    (acc : Bytes) : PassSpec (acc ++ q.flatten) (pullWrites N rx q s acc) := by
  induction q generalizing s acc with
  | nil =>
    unfold pullWrites
    split_ifs
    · exact ⟨by simp, by simp, by simp, by simp⟩
    · exact ⟨by simp, by simp, by simp, fun _ => ⟨rfl, rfl⟩⟩
    · exact ⟨by simp, by simp, by simp, by simp⟩
  | cons data q ih =>
    unfold pullWrites
    by_cases hc : N.canSend s = true
    · have hm := ((hN.canSend_iff s).mp hc).1
      rw [if_pos hc, sendSlice_eq hN hm]
      simp only
      split_ifs with hn
      · exact ⟨append_take_drop acc data q.flatten _, drop_ne_nil hn, by simp, by simp⟩
      · have hall : data.take (min data.length (N.txFree s)) = data :=
          List.take_of_length_le (by omega)
        rw [hall]
        simpa [List.append_assoc] using ih (N.sendSlice s data).2 (acc ++ data)
    · rw [if_neg hc]
      exact ⟨by simp, by simp, by simp, by simp⟩

theorem processTcpWrite_spec (hN : N.SendContract) (s : T) (pending : Option Bytes)
    (rx : Chan Bytes) (hp : pending ≠ some []) :
    PassSpec (pending.getD [] ++ rx.queue.flatten) (processTcpWrite N s pending rx) := by
  cases pending with
  | none => exact pullWrites_spec hN rx rx.queue s []
  | some data =>
    unfold processTcpWrite
    by_cases hm : N.maySend s = true
    · simp only [if_pos hm]
      rw [sendSlice_eq hN hm]
      simp only
      split_ifs with hn
      · exact ⟨append_take_drop [] data rx.queue.flatten _, drop_ne_nil hn, by simp, by simp⟩
      · have hall : data.take (min data.length (N.txFree s)) = data :=
          List.take_of_length_le (by omega)
        rw [hall]
        exact pullWrites_spec hN rx rx.queue _ data
    · simp only [if_neg hm]
      exact ⟨rfl, hp, by simp, by simp⟩

/-- The bytes written so far are those accepted by the socket, then the partial chunk, then
the queued chunks. -/
def StreamKept (st : TcpSocketState) (c : TcpChan) : Prop :=
  c.accepted ++ (st.pendingWrite.getD [] ++ c.write.queue.flatten) = c.written ∧
  st.pendingWrite ≠ some []

theorem streamKept_rule (hN : N.SendContract) : EntryRule N StreamKept where
  new _ := ⟨rfl, by simp⟩
  app st c d h hop := by
    refine ⟨?_, h.2⟩
    rcases hop.write with ⟨hq, hw⟩ | ⟨buf, hq, hw⟩
    · rw [hop.accepted, hq, hw]
      exact h.1
    · rw [hop.accepted, hq, hw, ← h.1]
      simp [List.append_assoc]
  write st c s h := by
    have hspec := processTcpWrite_spec hN s st.pendingWrite c.write h.2
    refine ⟨?_, hspec.nonempty⟩
    simp only
    rw [List.append_assoc, hspec.stream]
    exact h.1
  read _ _ _ h := h

end TapTunnel.Stack

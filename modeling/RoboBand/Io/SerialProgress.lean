import RoboBand.Data.FramingProgress
import RoboBand.Io.SerialFraming

namespace RoboBand.Io

open RoboBand.Data

/-! Whether a call of `Serial::read` comes back while the port has bytes for
it all the time. -/

def arrivals (stream : Stream' (List Byte)) (count : ℕ) : List PortEvent :=
  (stream.take count).map .bytes

theorem chunks_arrivals (stream : Stream' (List Byte)) (count : ℕ) :
    chunks (arrivals stream count) = stream.take count := by
  rw [chunks, arrivals, List.filterMap_map]
  exact List.filterMap_some

theorem arrivals_undisturbed (stream : Stream' (List Byte)) (count : ℕ) :
    ∀ event ∈ arrivals stream count, event.undisturbed = true := by
  intro event member
  obtain ⟨chunk, _, rfl⟩ := List.mem_map.mp member
  rfl

namespace Serial

/-- Only the search for the first head can keep a call from filling its buffer:
each piece that is searched without meeting it is dropped whole. -/
theorem read_comes_back_iff (serial : Serial)
    (positive : 0 < serial.bufferSize) (stream : Stream' (List Byte))
    (allowed : ∀ count, serial.reader.Admits serial.PortAllowed serial.start
      (arrivals stream count)) :
    (∃ count, serial.reader.outputs serial.start (arrivals stream count) ≠
        []) ↔
      serial.bufferSize < (firstHead serial.headTails.entries).length ∨
        ∃ count, ∃ piece ∈ pieces (firstHead serial.headTails.entries).length
          [] (stream.take count),
          firstHead serial.headTails.entries <:+: piece := by
  have refines : ∀ count, _ ∧ _ := fun count =>
    reader_refines_framer rfl positive (holds_start serial) positive
      (arrivals_undisturbed stream count) (allowed count)
  simp only [chunks_arrivals] at refines
  rw [← handsOut_iff fun count => (refines count).2]
  refine exists_congr fun count => ?_
  rw [(refines count).1]
  exact List.map_eq_nil_iff.not

/-- A port that is set up for the motors' answers. -/
def motors : Serial := (Serial.new 16).addRxHeadTail [0xfd, 0xee] []

/-- Noise without a head comes in byte by byte, and every second byte the
buffer is emptied. -/
theorem read_never_comes_back :
    let noise := Stream'.const [(0 : Byte)]
    (∀ count, motors.reader.Admits motors.PortAllowed motors.start
        (arrivals noise count)) ∧
      ¬ ∃ count, motors.reader.outputs motors.start (arrivals noise count) ≠
        [] := by
  intro noise
  have idles : ∀ count readLen gotData, readLen < 2 →
      let state : ReadState := ⟨List.replicate 16 0, readLen, gotData⟩
      motors.reader.Admits motors.PortAllowed state (arrivals noise count) ∧
        motors.reader.outputs state (arrivals noise count) = [] := by
    intro count
    induction count with
    | zero => exact fun _ _ _ => ⟨trivial, rfl⟩
    | succ count ih =>
        intro readLen gotData short
        have next : arrivals noise (count + 1) =
            .bytes [0] :: arrivals noise count := rfl
        rw [next]
        have fits : 1 ≤ 16 - readLen := by omega
        have delivers : motors.PortAllowed
            ⟨List.replicate 16 0, readLen, gotData⟩ (.bytes [0]) :=
          ⟨List.cons_ne_nil 0 [], fits⟩
        match readLen, short with
        | 0, _ =>
            obtain ⟨admitted, silent⟩ := ih 1 true (by decide)
            exact ⟨⟨delivers, admitted⟩, silent⟩
        | 1, _ =>
            obtain ⟨admitted, silent⟩ := ih 0 true (by decide)
            exact ⟨⟨delivers, admitted⟩, silent⟩
  refine ⟨fun count => (idles count 0 false (by decide)).1, ?_⟩
  rintro ⟨count, answers⟩
  exact answers (idles count 0 false (by decide)).2

/-- Each of the bytes is a head. -/
theorem read_comes_back_with_heads :
    let serial := (Serial.new 1).addRxHeadTail [0xfd] []
    ∃ count, serial.reader.outputs serial.start
      (arrivals (Stream'.const [0xfd]) count) ≠ [] := by
  intro serial
  have allowed : ∀ count, serial.reader.Admits serial.PortAllowed serial.start
      (arrivals (Stream'.const [0xfd]) count) := by
    intro count
    induction count with
    | zero => trivial
    | succ count ih => exact ⟨by decide, ih⟩
  refine (serial.read_comes_back_iff (by decide) _ allowed).mpr (.inr ?_)
  exact ⟨1, [0xfd], List.mem_cons_self, List.infix_rfl⟩

end Serial

end RoboBand.Io

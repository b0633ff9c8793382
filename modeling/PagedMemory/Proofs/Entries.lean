import PagedMemory.Entry

/-!
What entries say after their flags change, and which frame they lead to.
-/

namespace PagedMemory

theorem Frame.ext_number {frame other : Frame} (same : frame.number = other.number) :
    frame = other := by
  cases frame
  cases other
  exact congrArg Frame.mk same

namespace Entry

/-- Whether the entry is present and leads to `frame`. -/
def PointsAt (entry : Entry) (frame : Frame) : Prop :=
  entry.isPresent = true ∧ entry.frame = frame

instance (entry : Entry) (frame : Frame) : Decidable (entry.PointsAt frame) :=
  inferInstanceAs (Decidable (_ ∧ _))

theorem not_pointsAt_of_absent {entry : Entry} (absent : entry.isPresent = false)
    (frame : Frame) : ¬ entry.PointsAt frame := by
  intro points
  rw [points.1] at absent
  cases absent

theorem isPresent_empty : empty.isPresent = false := rfl

theorem writeProtected_empty : empty.writeProtected = empty := rfl

theorem isPresent_new (frame : Frame) (flags : Flags) :
    (new frame flags).isPresent = flags.present := by
  rw [isPresent, flags_new]

theorem isWritable_new (frame : Frame) (flags : Flags) :
    (new frame flags).isWritable = flags.writable := by
  rw [isWritable, flags_new]

theorem isUser_new (frame : Frame) (flags : Flags) : (new frame flags).isUser = flags.user := by
  rw [isUser, flags_new]

theorem isPresent_writeProtected (entry : Entry) :
    entry.writeProtected.isPresent = entry.isPresent := by
  rw [isPresent, isPresent, flags_writeProtected]

theorem isWritable_writeProtected (entry : Entry) : entry.writeProtected.isWritable = false := by
  rw [isWritable, flags_writeProtected]

theorem writeProtected_writeProtected (entry : Entry) :
    entry.writeProtected.writeProtected = entry.writeProtected := by
  rw [writeProtected, isWritable_writeProtected]
  exact if_neg Bool.false_ne_true

theorem pointsAt_writeProtected {entry : Entry} {frame : Frame} :
    entry.writeProtected.PointsAt frame ↔ entry.PointsAt frame := by
  rw [PointsAt, PointsAt, isPresent_writeProtected, frame_writeProtected]

theorem isPresent_madeWritable (entry : Entry) :
    entry.madeWritable.isPresent = entry.isPresent := by
  rw [isPresent, isPresent, flags_madeWritable]

theorem isWritable_madeWritable (entry : Entry) : entry.madeWritable.isWritable = true := by
  rw [isWritable, flags_madeWritable]

end Entry

end PagedMemory

/-
  The order in which candidates are preferred.

  Ranking keeps the playable candidates and puts the better ones first.  The codec decides, and then
  the bitrate (`Precedes`), so many candidates may be equally good: the order is total and
  transitive but does not tell these apart.  The crux is what happens to them.  They form a sublist
  that is in order already, and a merge sort keeps such a sublist as it is, so equally good candidates
  stay in the order of the response (`rankAudio_agreeing`).  For the same reason a ranked list is not
  changed when it is ranked again.
-/
import StreamResolver.Media.Candidate

namespace StreamResolver

/-! ## What comes first -/

/-- The one codec is preferred over the other. -/
inductive AudioCodec.Preferred : AudioCodec → AudioCodec → Prop
  | opusAac : Preferred .opus .aac
  | opusOther : Preferred .opus .other
  | aacOther : Preferred .aac .other

theorem AudioCodec.preferred_iff (a b : AudioCodec) :
    a.Preferred b ↔ b.preference < a.preference := by
  constructor
  · rintro (_ | _ | _) <;> decide
  · cases a <;> cases b <;> intro h <;> first | constructor | exact absurd h (by decide)

theorem AudioCodec.preference_inj {a b : AudioCodec} : a.preference = b.preference ↔ a = b := by
  cases a <;> cases b <;> decide

namespace Candidate

variable {a b c : Candidate} {cs : List Candidate}

/-- The one candidate may stand before the other: its codec is preferred, or they share the codec
    and the bitrates do not rise. -/
def Precedes (a b : Candidate) : Prop :=
  a.codec.Preferred b.codec ∨ a.codec = b.codec ∧ b.bitrate ≤ a.bitrate

theorem mayPrecede_iff : a.mayPrecede b = true ↔ a.Precedes b := by
  rw [mayPrecede, Bool.or_eq_true, Bool.and_eq_true, decide_eq_true_iff, decide_eq_true_iff,
    beq_iff_eq, Precedes, AudioCodec.preferred_iff, AudioCodec.preference_inj]

theorem mayPrecede_trans (a b c : Candidate) (hab : a.mayPrecede b = true)
    (hbc : b.mayPrecede c = true) : a.mayPrecede c = true := by
  rw [mayPrecede, Bool.or_eq_true, Bool.and_eq_true, decide_eq_true_iff, decide_eq_true_iff,
    beq_iff_eq] at *
  omega

theorem mayPrecede_total (a b : Candidate) : (a.mayPrecede b || b.mayPrecede a) = true := by
  rw [Bool.or_eq_true]
  simp only [mayPrecede, Bool.or_eq_true, Bool.and_eq_true, decide_eq_true_iff, beq_iff_eq]
  omega

/-! ## What ranking keeps -/

/-- Ranking keeps exactly the playable candidates. -/
theorem mem_rankAudio : c ∈ rankAudio cs ↔ c ∈ cs ∧ c.isPlayable = true := by
  rw [rankAudio, List.mem_mergeSort, List.mem_filter]

theorem length_rankAudio (cs : List Candidate) : (rankAudio cs).length = cs.countP isPlayable := by
  rw [rankAudio, List.length_mergeSort, List.countP_eq_length_filter]

theorem rankAudio_eq_nil (h : ∀ x ∈ cs, x.isPlayable = false) : rankAudio cs = [] := by
  refine List.eq_nil_iff_forall_not_mem.mpr fun x hx => ?_
  obtain ⟨hmem, hplayable⟩ := mem_rankAudio.mp hx
  rw [h x hmem] at hplayable
  cases hplayable

theorem perm_rankAudio (cs : List Candidate) : (rankAudio cs).Perm (cs.filter isPlayable) :=
  List.mergeSort_perm _ mayPrecede

/-! ## The order -/

theorem pairwise_rankAudio (cs : List Candidate) :
    (rankAudio cs).Pairwise fun a b => a.mayPrecede b = true :=
  List.pairwise_mergeSort mayPrecede_trans mayPrecede_total _

/-- The candidate has this codec and this bitrate. -/
def agrees (codec : AudioCodec) (bitrate : Int) (c : Candidate) : Bool :=
  c.codec == codec && c.bitrate == bitrate

theorem agrees_iff {codec : AudioCodec} {bitrate : Int} :
    c.agrees codec bitrate = true ↔ c.codec = codec ∧ c.bitrate = bitrate := by
  rw [agrees, Bool.and_eq_true, beq_iff_eq, beq_iff_eq]

/-- Candidates that agree are in order, whichever of them comes first. -/
theorem pairwise_agreeing (codec : AudioCodec) (bitrate : Int) (cs : List Candidate) :
    (cs.filter (agrees codec bitrate)).Pairwise fun a b => a.mayPrecede b = true := by
  rw [List.pairwise_filter]
  refine List.pairwise_of_forall fun a b ha hb => ?_
  obtain ⟨hcodec, hbitrate⟩ := agrees_iff.mp ha
  obtain ⟨hcodec', hbitrate'⟩ := agrees_iff.mp hb
  exact mayPrecede_iff.mpr
    (.inr ⟨hcodec.trans hcodec'.symm, Int.le_of_eq (hbitrate'.trans hbitrate.symm)⟩)

/-- Candidates that agree are ranked in the order in which they came. -/
theorem rankAudio_agreeing (codec : AudioCodec) (bitrate : Int) (cs : List Candidate) :
    (rankAudio cs).filter (agrees codec bitrate) =
      (cs.filter isPlayable).filter (agrees codec bitrate) := by
  have hsub : ((cs.filter isPlayable).filter (agrees codec bitrate)).Sublist (rankAudio cs) :=
    List.sublist_mergeSort mayPrecede_trans mayPrecede_total
      (pairwise_agreeing codec bitrate _) List.filter_sublist
  have hkept := hsub.filter (agrees codec bitrate)
  rw [List.filter_filter] at hkept
  simp only [Bool.and_self] at hkept
  exact (hkept.eq_of_length ((perm_rankAudio cs).filter _).length_eq.symm).symm

theorem rankAudio_ranked (cs : List Candidate) : rankAudio (rankAudio cs) = rankAudio cs := by
  have hplayable : (rankAudio cs).filter isPlayable = rankAudio cs :=
    List.filter_eq_self.mpr fun c hc => (mem_rankAudio.mp hc).2
  rw [rankAudio, hplayable]
  exact List.mergeSort_of_pairwise (pairwise_rankAudio cs)

/-- **Ranking is a stable sort by preference** of the candidates that are audio and no manifests:
    none is lost or doubled, the better ones come first, equally good ones keep their order, and a
    ranked list stays as it is. -/
theorem rankAudio_stable (cs : List Candidate) :
    (rankAudio cs).Perm (cs.filter fun c => c.isAudio && !c.isManifest) ∧
      (rankAudio cs).Pairwise Precedes ∧
      (∀ codec bitrate, (rankAudio cs).filter (agrees codec bitrate) =
        (cs.filter fun c => c.isAudio && !c.isManifest).filter (agrees codec bitrate)) ∧
      rankAudio (rankAudio cs) = rankAudio cs :=
  ⟨perm_rankAudio cs, (pairwise_rankAudio cs).imp mayPrecede_iff.mp,
    fun codec bitrate => rankAudio_agreeing codec bitrate cs, rankAudio_ranked cs⟩

end Candidate

end StreamResolver

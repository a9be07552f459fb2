/-
  The body of the helper of a player script is located.

  The helper is declared first, so its body is found at the start of the script, and it ends at the
  first brace with a semicolon behind it: inside the functions of the helper every semicolon stands
  behind something else (`locate_helperBody`).
-/
import StreamResolver.Proofs.Cipher.ScriptText
import StreamResolver.Proofs.Cipher.Templates

namespace StreamResolver.Cipher

open Text Pattern

/-! ## The body -/

/-- The declaration of the object with the given name. -/
def objectDeclaration (name : List Char) : Pattern :=
  .sequence ("var".toList.map (fun c => .one (.char c)) ++ (.some1 .blank ::
    (name.map (fun c => .one (.char c)) ++ (.many .blank :: objectValue))))

theorem objectDeclaration_stands (i : Ident) : ∃ m ms, defaultMatchers .helperBody = m :: ms ∧
    m.indexed = false ∧ m.capture = 1 ∧
      m.Stands [("name", String.ofList i.chars)] (objectDeclaration i.chars) 1 := by
  obtain ⟨m, ms, hms, hindexed, hcapture, t, ht⟩ :
      ∃ m ms, defaultMatchers .helperBody = m :: ms ∧ m.indexed = false ∧ m.capture = 1 ∧
        ∃ t : NamePlace m, ∀ name, t.around name = objectDeclaration name :=
    ⟨_, _, rfl, rfl, rfl, .ofTexts rfl rfl (by decide +kernel) rfl fronts_var backs_object rfl
      (by decide), fun name => rfl⟩
  exact ⟨m, ms, hms, hindexed, hcapture, ht i.chars ▸ t.stands_named i.chars⟩

/-- A brace and a semicolon are two characters that every way begins with. -/
theorem objectEnd_begins :
    (sequence [.one (.char '\x7d'), .one (.char ';')]).Begins '\x7d' (· == ';') := by
  intro s t h
  obtain ⟨m, hbrace, h⟩ := leads_sequence_cons h
  obtain ⟨c, hc, hafter⟩ := leads_one hbrace
  obtain ⟨d, hd, hrest⟩ := leads_one h
  obtain rfl : c = '\x7d' := by simpa using hc
  exact ⟨d, t.after, by rw [hafter, hrest], by simpa using hd⟩

theorem takes_objectDeclaration (p : PlayerScript) (after : List Char) :
    (objectDeclaration p.helperName.chars).Takes [] [] ("var".toList ++ ([' '] ++
      (p.helperName.chars ++ ('=' :: '\x7b' :: (p.helperText ++ ['\x7d', ';']))))) after
        [(1, p.helperText)] := by
  refine takes_literal (takes_cons (takes_single (by decide) ?_ _ _) (takes_literal ?_))
  · rw [List.append_assoc]
    exact p.helperName.head?_append p.helperName.no_blank _
  refine takes_gap (head?_cons_not (by decide) _) (takes_char ?_)
  refine takes_gap (head?_cons_not (by decide) _) (takes_char ?_)
  refine takes_lazy (fun _ _ => rfl) ?_ (takes_char (takes_char (takes_end _ _ _)))
  exact p.barren_helperText objectEnd_begins (by decide) (by decide)
    (fun s => by cases s <;> decide +kernel) _ _

namespace PlayerScript

variable (p : PlayerScript)

theorem text_eq_helper : p.text = [] ++ (("var".toList ++ ([' '] ++ (p.helperName.chars ++
    ('=' :: '\x7b' :: (p.helperText ++ ['\x7d', ';']))))) ++ ("var ".toList ++
      (p.functionName.chars ++ ("=function(a)\x7b".toList ++ (p.bodyText ++
        ("\x7d;g.z=function(a)\x7bvar b;a.D&&(b=a.get(\"n\"))&&(b=".toList ++
          (p.functionName.chars ++ "(b),a.set(\"n\",b))\x7d;".toList))))))) := by
  have hvar : "var ".toList = "var".toList ++ [' '] := by decide
  have hopen : "=\x7b".toList = ['=', '\x7b'] := by decide
  have hclose : "\x7d;var ".toList = ['\x7d', ';'] ++ "var ".toList := by decide
  rw [text, hopen, hclose, hvar]
  simp only [List.append_assoc, List.cons_append, List.nil_append]

/-- **The body of the helper** is located. -/
theorem locate_helperBody : ∃ i, (locate (String.ofList p.text) .helperBody
    (defaultMatchers .helperBody) [("name", String.ofList p.helperName.chars)]).value =
      .ok ⟨String.ofList p.helperText, i⟩ := by
  obtain ⟨m, ms, hms, hindexed, hcapture, hstands⟩ := objectDeclaration_stands p.helperName
  have hfound : ∃ found, (objectDeclaration p.helperName.chars).search? p.text = some found ∧
      found.stop.captures = [(1, p.helperText)] := by
    rw [text_eq_helper]
    exact search?_eq_some (barren_nil _ _ _) (takes_objectDeclaration p _) (by simp)
  have hne : p.helperText ≠ [] := by
    obtain ⟨f, more, -, hhelper⟩ := p.exists_functions
    rw [hhelper, HelperFunction.text]
    simp
  refine ⟨0, locate_eq_ok ?_⟩
  rw [hms]
  refine firstCapture_here (search_captured hstands hindexed (by omega) (by omega) hfound ?_ hne) 0
  rw [hcapture]
  rfl

end PlayerScript

end StreamResolver.Cipher

import BitcodeWrapper.Path.Basic

/-!
File name extensions. The extension begins at the last dot of the base name, if something other than
dots stands before it there.
-/
namespace BitcodeWrapper.Path

/-- Cuts a base name before its last dot. -/
def cutChars (name : List Char) : List Char × List Char :=
  match name.reverse.dropWhile (· != '.') with
  | [] => (name, [])
  | _ :: before =>
    if before.any (· != '.') then
      (before.reverse, '.' :: (name.reverse.takeWhile (· != '.')).reverse)
    else (name, [])

theorem cutChars_append (name : List Char) : (cutChars name).1 ++ (cutChars name).2 = name := by
  rw [cutChars]
  split
  · simp
  · rename_i c before h
    split
    · have hc : c = '.' := by
        have := List.head_dropWhile_not (fun x : Char => x != '.') (by rw [h]; simp)
        simpa [h] using this
      have hn := @List.takeWhile_append_dropWhile _ (· != '.') name.reverse
      rw [h, hc] at hn
      have := congrArg List.reverse hn
      simpa only [List.reverse_append, List.reverse_cons, List.reverse_reverse,
        List.append_assoc, List.singleton_append] using this
    · simp

def extension (path : String) : String :=
  String.ofList (cutChars (baseChars path.toList)).2

/-- The base name without its extension. -/
def stem (path : String) : String :=
  String.ofList (cutChars (baseChars path.toList)).1

end BitcodeWrapper.Path

import ComponentGraph.Path

/-!
Import specifiers. A specifier that begins with a dot is local to the importing file; every other
one names a package. A local specifier may leave out the extension of the file, and may name a
directory with an index file in it: `candidates` lists what it can stand for in order of preference,
and `resolve` picks the first that is there. A specifier with a source extension is taken at its
word.
-/

set_option autoImplicit false
set_option relaxedAutoImplicit false

namespace ComponentGraph.Specifier

/-- The extensions of source files, in order of preference. -/
def extensions : List String := ["tsx", "ts", "jsx", "js"]

/-- Whether a name ends with a source extension and has something in front of the dot. -/
def hasSourceExtension (name : String) : Bool :=
  extensions.any (fun extension ↦
    Text.Search.endsWith name ("." ++ extension) &&
      decide (extension.toList.length + 1 < name.toList.length))

/-- Whether a specifier is relative to the importing file. -/
def isLocal (specifier : String) : Bool :=
  Text.Search.beginsWith specifier "."

/-- The files that a specifier without extension can stand for: the specifier with each extension,
then an index file with each extension. -/
def candidates (specifier : String) (directory : Path) : List Path :=
  extensions.map (fun extension ↦ (directory.join (specifier ++ "." ++ extension)).clean) ++
    extensions.map (fun extension ↦
      ((directory.join specifier).join ("index." ++ extension)).clean)

/-- The file that a specifier in a directory stands for. -/
def resolve (isFile : Path → Bool) (specifier : String) (directory : Path) : Option Path :=
  if hasSourceExtension specifier then some (directory.join specifier).clean
  else (candidates specifier directory).find? isFile

end ComponentGraph.Specifier

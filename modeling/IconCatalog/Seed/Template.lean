import IconCatalog.Text.Search
/-!
The fixed texts of the generated files. A placeholder is a key in double braces; filling a template
replaces every placeholder of a key by its value.
-/
namespace IconCatalog.Seed
open Text

inductive Framework where
  | next
  | vite
  deriving DecidableEq, Repr

def unlines (ls : List String) : Text := ls.flatMap fun l => l.toList ++ ['\n']

def placeholder (key : Text) : Text := "\x7b\x7b".toList ++ key ++ "\x7d\x7d".toList

/-- Replaces the placeholders key by key, so a value may hold the placeholder of a later key. -/
def fill (template : Text) (values : List (Text × Text)) : Text :=
  values.foldl (fun t (key, value) => replaceAll (placeholder key) value t) template

def typesIndex : Text := unlines [
  "export type ImagePaths = \x7b",
  "  lightMode: string;",
  "  darkMode: string;",
  "\x7d;",
  "",
  "export type ComponentProps = \x7b",
  "  className?: string;",
  "  size?: number;",
  "  width?: number;",
  "  height?: number;",
  "  alt?: string;",
  "\x7d;",
  "",
  "export \x7b TokenSymbol \x7d from \"./TokenSymbol\";",
  "export \x7b WalletName \x7d from \"./WalletName\";",
  "export \x7b SystemName \x7d from \"./SystemName\";"]

def tablePreamble : Text := unlines [
  "import \x7b ImagePaths \x7d from \"../types\";",
  ""]

def barrelIndex : Text := unlines [
  "export \x7b CryptoIcon \x7d from \"./CryptoIcon\";",
  "export \x7b iconMap \x7d from \"./constants/imagePaths\";",
  "export * from \"./types\";"]

def darkClassKey : Text := "DARK_CLASS".toList

def imageElement (element mode classes : String) : List String := [
  "      <" ++ element,
  "        src=\x7bpaths." ++ mode ++ "\x7d",
  "        alt=\x7balt ?? name\x7d",
  "        width=\x7bfinalWidth\x7d",
  "        height=\x7bfinalHeight\x7d",
  "        className=\x7b`" ++ classes ++ " $\x7bclassName\x7d`\x7d",
  "      />"]

def componentText (imports : List String) (element : String) : Text := unlines <|
  imports ++ [
  "import \x7b iconMap \x7d from \"./constants/imagePaths\";",
  "import \x7b ComponentProps, SystemName, TokenSymbol, WalletName \x7d from \"./types\";",
  "",
  "type CryptoIconProps = ComponentProps & \x7b",
  "  name: TokenSymbol | WalletName | SystemName | string;",
  "\x7d;",
  "",
  "export function CryptoIcon(\x7b name, className = \"\", size = 24, width, height, alt \x7d" ++
    ": CryptoIconProps) \x7b",
  "  const paths = iconMap[name];",
  "  if (!paths) \x7b",
  "    return null;",
  "  \x7d",
  "",
  "  const finalWidth = width ?? size;",
  "  const finalHeight = height ?? size;",
  "",
  "  return (",
  "    <>"] ++
  imageElement element "lightMode" "\x7b\x7bDARK_CLASS\x7d\x7d:hidden" ++
  imageElement element "darkMode" "hidden \x7b\x7bDARK_CLASS\x7d\x7d:block" ++ [
  "    </>",
  "  );",
  "\x7d"]

def component : Framework → Text
  | .next => componentText ["\"use client\";", "", "import Image from \"next/image\";"] "Image"
  | .vite => componentText [] "img"

end IconCatalog.Seed

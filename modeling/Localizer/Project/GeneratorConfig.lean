import Localizer.Yaml.Writer

/-!
# The generator's configuration

The localizations class is generated from the resource file by a tool that reads its settings from
`l10n.yaml`. The generated code goes into a folder of its own beside the resource file.
-/

namespace Localizer.Project

open Text Yaml

/-- The name of the configuration file. -/
def generatorConfigFile : Text := "l10n.yaml".toList

/-- The name of the generated module. -/
def defaultOutputFile : Text := "app_localizations.dart".toList

/-- What the generator is told. -/
structure GeneratorConfig where
  /-- The folder of the resource file. -/
  arbDir : Message
  /-- The name of the resource file. -/
  templateArbFile : Message
  /-- The class to generate, or an empty list if none was named. -/
  outputClass : Scalar
  /-- The module to generate. -/
  outputFile : Message := defaultOutputFile
  nullableGetter : Bool := false
  syntheticPackage : Bool := false
  deriving Repr, DecidableEq

namespace GeneratorConfig

/-- The folder of the generated code. -/
def outputDir (c : GeneratorConfig) : Message := c.arbDir ++ "/generated".toList

/-- The text of the configuration file. -/
def render (c : GeneratorConfig) : Text :=
  writeMapping [
    ("arb-dir".toList, .text c.arbDir),
    ("template-arb-file".toList, .text c.templateArbFile),
    ("output-class".toList, c.outputClass),
    ("output-localization-file".toList, .text c.outputFile),
    ("output-dir".toList, .text c.outputDir),
    ("nullable-getter".toList, .bool c.nullableGetter),
    ("synthetic-package".toList, .bool c.syntheticPackage)]

end GeneratorConfig

end Localizer.Project

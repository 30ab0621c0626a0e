/-!
# Completion Scripts

For each shell there is a script that makes it ask the program for candidates when the user
completes a word. The scripts are fixed texts.
-/

namespace CommandGate

/-- The shells that there are scripts for. -/
inductive Shell where
  | bash
  | zsh
  | fish
  | powershell
  deriving DecidableEq

namespace Shell

/-- The shells in the order of help texts. -/
def all : List Shell := [bash, zsh, fish, powershell]

/-- The name of a shell. -/
def name : Shell → String
  | bash => "bash"
  | zsh => "zsh"
  | fish => "fish"
  | powershell => "powershell"

/-- The shell of a name. -/
def ofName? (s : String) : Option Shell :=
  all.find? (·.name = s)

/-- The function that both shells with programmable completion use. -/
def completionFunction : List String :=
  ["_rit_complete() \x7b",
    "    local IFS=$'\\n'",
    "    COMPREPLY=( $(rit __complete \"$\x7bCOMP_WORDS[@]:1:COMP_CWORD\x7d\" 2>/dev/null) )",
    "\x7d",
    "complete -F _rit_complete rit"]

/-- The lines of the script for a shell. -/
def scriptLines : Shell → List String
  | bash => "# rit bash completion" :: completionFunction
  | zsh =>
    "#compdef rit" :: "autoload -U +X bashcompinit && bashcompinit" :: completionFunction
  | fish =>
    ["# rit fish completion",
      "complete -c rit -f -a '(rit __complete (commandline -opc)[2..-1] (commandline -ct) "
        ++ "2>/dev/null)'"]
  | powershell =>
    ["# rit powershell completion",
      "Register-ArgumentCompleter -Native -CommandName rit -ScriptBlock \x7b",
      "    param($wordToComplete, $commandAst, $cursorPosition)",
      "    $words = @($commandAst.CommandElements | Select-Object -Skip 1 | "
        ++ "ForEach-Object \x7b $_.ToString() \x7d)",
      "    if ($wordToComplete -eq '') \x7b $words += '' \x7d",
      "    rit __complete @words | ForEach-Object \x7b",
      "        [System.Management.Automation.CompletionResult]::new($_, $_, "
        ++ "'ParameterValue', $_)",
      "    \x7d",
      "\x7d"]

/-- The script for a shell. -/
def script (s : Shell) : String :=
  "".intercalate (s.scriptLines.map (· ++ "\n"))

end Shell

end CommandGate

import StreamScript.Text.CharSet

/-!
# Script extensions

Some characters are used in several scripts. The table lists, by the short name
of a script, the characters in which the extended script differs from the
script itself: those that it gains, or that it loses because other scripts
claim them.
-/

namespace StreamScript.Regex

/-- What the extended scripts change. -/
def extensionTable : List (String × Text.CharSet) :=
  [("adlm", .ofGaps
      ["61f 1 20 1 1a0e 1 df1 1"]),
   ("aghb", .ofGaps
      ["304 1 2c 1 2c 1"]),
   ("arab", .ofGaps
      ["60c 1 e 1 3 1 20 1 a b 1a 1 19de 1 df1 1 cefc 2 5a0 1c"]),
   ("armn", .ofGaps
      ["308 1"]),
   ("avst", .ofGaps
      ["b7 1 2d78 2"]),
   ("beng", .ofGaps
      ["2bc 1 694 2 11 2 136a 1 1 1 2 2 1 1 8 1 8 1 2 1 4 1 2 3 8bf9 1"]),
   ("bopo", .ofGaps
      ["2c7 1 1 3 d 1 2d27 3 4 a 1 d a 4 2 1 6 1 c3 1 cd49 2 11a 5"]),
   ("bugi", .ofGaps
      ["a9cf 1"]),
   ("buhd", .ofGaps
      ["1735 2"]),
   ("cakm", .ofGaps
      ["9e6 a 650 a"]),
   ("cari", .ofGaps
      ["b7 1 1fa2 1 2 1 dd3 1"]),
   ("cher", .ofGaps
      ["300 3 1 1 6 2 16 2 b 2"]),
   ("copt", .ofGaps
      ["b7 1 248 1 3 2 1 1 6c 2 2aa1 1 d4c8 1c"]),
   ("cpmn", .ofGaps
      ["10100 2"]),
   ("cprt", .ofGaps
      ["10100 3 4 2d 3 9"]),
   ("cyrl", .ofGaps
      ["2bc 1 43 3 1 1 1 1 1 1 2 1 5 1 173 2 1971 1 104a 1"]),
   ("deva", .ofGaps
      ["2bc 1 694 2 11 2 136a 27 1 2 3f6 1 873f a"]),
   ("dogr", .ofGaps
      ["964 c 9ec0 a"]),
   ("dupl", .ofGaps
      ["b7 1 24f 2 1 1 18 2 2b17 1 18e63 4"]),
   ("elba", .ofGaps
      ["b7 1 24d 1"]),
   ("ethi", .ofGaps
      ["30e 1"]),
   ("gara", .ofGaps
      ["60c 1 e 1 3 1"]),
   ("geor", .ofGaps
      ["b7 1 4d1 1 b71 1 f5e 1 dd6 1"]),
   ("glag", .ofGaps
      ["b7 1 24b 1 1 1 17e 1 2 1 101 1 b71 1 f5e 1 de8 1 782b 1"]),
   ("gong", .ofGaps
      ["b7 1 8ac 2"]),
   ("gonm", .ofGaps
      ["964 2"]),
   ("goth", .ofGaps
      ["b7 1 24c 2 2 1 28 1"]),
   ("gran", .ofGaps
      ["951 2 11 2 280 e 10dc 1 1 2 1e 3 3 2 3f6 1 f24a 1 c94 2 1 1"]),
   ("grek", .ofGaps
      ["b7 1 248 2 2 1 1 1 1 1 a 1 2e 1 2 1 2e 1 1a4b 2 29b 1"]),
   ("gujr", .ofGaps
      ["951 2 11 2 9eca a"]),
   ("gukh", .ofGaps
      ["965 1"]),
   ("guru", .ofGaps
      ["951 2 11 2 9eca a"]),
   ("hang", .ofGaps
      ["3001 3 4 a 1 d 10 1 6 1 c3 1 cd49 2 11a 5"]),
   ("hani", .ofGaps
      ["b7 1 2f38 10 1 3 2 1 1 a 1 d a 4 2 1 6 1 4 4 bb 1 94 10 20 26 9 1 30 28 38 31 f c 33 1",
       "58 19 a 5 60 1f 7301 8 573d 2 11a 5 d3fa 12 1ede 2"]),
   ("hano", .ofGaps
      ["1735 2"]),
   ("hebr", .ofGaps
      ["307 2"]),
   ("hira", .ofGaps
      ["3001 3 4 a 1 d 10 6 1 1 4 2 5b 4 3 1 5a 2 cd48 2 11a 5 a 1 2d 2"]),
   ("hung", .ofGaps
      ["205a 1 2 1 dd3 1 f 1"]),
   ("java", .ofGaps
      ["a9cf 1"]),
   ("kali", .ofGaps
      ["a92e 1"]),
   ("kana", .ofGaps
      ["305 1 1d 1 2cdd 3 4 a 1 d 10 6 1 1 4 2 5b 4 3 1 5a 2 cd48 2 11a 5 a 1 2d 2"]),
   ("khoj", .ofGaps
      ["ae6 a 9d40 a"]),
   ("knda", .ofGaps
      ["951 2 11 2 136a 1 1 2 6 1 17 1 1 1 8b3b 6"]),
   ("kthi", .ofGaps
      ["966 a 24c1 1 79fe a"]),
   ("latn", .ofGaps
      ["b7 1 204 1 a 1 1 3 1 1 9 1 1 1 26 f 1 2 1 1 f 3 7 2 1 2 26 1 5 1 4 d 115 2 4ca 2 7a8 1",
       "cfc 1 236 1 c0 1 d26 1 78e8 8 226 1"]),
   ("limb", .ofGaps
      ["965 1"]),
   ("lina", .ofGaps
      ["10107 2d"]),
   ("linb", .ofGaps
      ["10100 3 4 2d 3 9"]),
   ("lisu", .ofGaps
      ["2bc 1 10 1 2d3c 2"]),
   ("lyci", .ofGaps
      ["205a 1"]),
   ("lydi", .ofGaps
      ["b7 1 2d79 1"]),
   ("mahj", .ofGaps
      ["b7 1 8ac c 9ec0 a"]),
   ("mand", .ofGaps
      ["640 1"]),
   ("mani", .ofGaps
      ["640 1"]),
   ("mero", .ofGaps
      ["205d 1"]),
   ("mlym", .ofGaps
      ["951 2 11 2 1374 1 17 1 8b3d 3"]),
   ("modi", .ofGaps
      ["a830 a"]),
   ("mong", .ofGaps
      ["1802 2 1 1 829 1 fd1 2 5 4"]),
   ("mult", .ofGaps
      ["a66 a"]),
   ("mymr", .ofGaps
      ["a92e 1"]),
   ("nand", .ofGaps
      ["951 1 12 2 380 a ff9 1 8 1 7 1 8b35 6"]),
   ("newa", .ofGaps
      ["951 2 1382 1 1 2 9 1 6 1 1 1 1 1"]),
   ("nkoo", .ofGaps
      ["60c 1 e 1 3 1 f71e 2"]),
   ("onao", .ofGaps
      ["964 2"]),
   ("orkh", .ofGaps
      ["205a 1 dd5 1"]),
   ("orya", .ofGaps
      ["951 2 11 2 1374 1 17 1"]),
   ("osge", .ofGaps
      ["301 1 2 1 6 1 4c 1"]),
   ("ougr", .ofGaps
      ["640 1 104b1 1"]),
   ("perm", .ofGaps
      ["b7 1 248 1 5 3 a 1 16f 1"]),
   ("phag", .ofGaps
      ["1802 2 1 1 829 1 fd2 1"]),
   ("phlp", .ofGaps
      ["640 1"]),
   ("rohg", .ofGaps
      ["60c 1 e 1 3 1 20 1 93 1"]),
   ("runr", .ofGaps
      ["16eb 3"]),
   ("samr", .ofGaps
      ["2e31 1"]),
   ("shaw", .ofGaps
      ["b7 1"]),
   ("shrd", .ofGaps
      ["951 1 1385 1 1 1 2 2 2 1 9 1 2 1 8b42 6 2 1"]),
   ("sind", .ofGaps
      ["964 2 9eca a"]),
   ("sinh", .ofGaps
      ["964 2 138c 1"]),
   ("sogd", .ofGaps
      ["640 1"]),
   ("sunu", .ofGaps
      ["300 2 1 1 9 1 2 1 1c 1 3 1"]),
   ("sylo", .ofGaps
      ["964 2 80 a"]),
   ("syrc", .ofGaps
      ["303 2 2 2 1 1 18 3 7 2 1 1 2db 1 e 2 2 1 20 1 a b 1a 1 1787 1 1 1"]),
   ("tagb", .ofGaps
      ["1735 2"]),
   ("takr", .ofGaps
      ["964 2 9eca a"]),
   ("tale", .ofGaps
      ["300 2 5 2 3 1 d33 a"]),
   ("taml", .ofGaps
      ["951 2 11 2 1374 1 8c18 1 6a0d 1 1 1 37 2"]),
   ("tang", .ofGaps
      ["2ff0 10 1ef 1"]),
   ("telu", .ofGaps
      ["951 2 11 2 136f 2 1 1 1 1 17 1"]),
   ("tfng", .ofGaps
      ["302 1 1 1 2 1 1 1"]),
   ("tglg", .ofGaps
      ["1735 2"]),
   ("thaa", .ofGaps
      ["60c 1 e 2 2 1 40 a f788 1 a 1"]),
   ("thai", .ofGaps
      ["2bc 1 1a 1 2b 1 2d 1"]),
   ("tibt", .ofGaps
      ["3008 4"]),
   ("tirh", .ofGaps
      ["951 2 11 2 136f 1 c 1 f 1 8b3d a"]),
   ("todr", .ofGaps
      ["301 1 2 1 2 1 9 1 1 1 4a 1"]),
   ("toto", .ofGaps
      ["2bc 1"]),
   ("tutg", .ofGaps
      ["ce6 a 1002 1 1 1 8b3b 6 bb 1"]),
   ("yezi", .ofGaps
      ["60c 1 e 1 3 1 40 a"]),
   ("yiii", .ofGaps
      ["3001 2 5 a 2 8 df 1 ce65 5"]),
   ("zinh", .ofGaps
      ["300 f 1 2 1 1 f 3 7 2 1 2 10 1 2 1 12 1 5 1 4 d 115 2 1c4 b 1a 1 2e0 2 137d 3 1 d 1 7 4",
       "1 6 1 3 2 c6 2 36 1 1 1 2f5 1 f39 4 6b 2 d245 1 105a 1"]),
   ("zyyy", .ofGaps
      ["b7 1 204 1 a 1 1 3 1 1 9 1 1 1 9a 1 297 1 e 1 3 1 20 1 323 2 795 1 5ef 3 47 2 cb 2 1 1",
       "4cd 1 d 1 7 4 1 6 1 3 2 1 334 1 1f 1 a 1 2 1 db9 1 18 2 a 1 4 1 1 1 1ac 10 1 3 2 1 1 a 1",
       "d 10 6 1 1 4 4 5b 2 3 1 5a 2 93 10 20 26 9 1 30 28 38 31 f c 33 1 58 19 a 5 60 1f 7301 8",
       "128 a f4 1 a0 1 536e 2 105 2 11a 5 a 1 2d 2 160 3 4 2d 3 9 1a1 1b b9a4 4 16bc 12 1ede 2"])]

end StreamScript.Regex

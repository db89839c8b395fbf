import StreamScript.Text.CaseRun

/-!
# Simple case folding

The characters that simple case folding moves, as runs: each is the gap since
the run before it began, its length, the distance of its characters, and the
image of its first character.
-/

namespace StreamScript.Regex

/-- **Simple case folding.** -/
def foldRuns : List Text.CaseRun := Text.CaseRun.ofLines
  ["41 1a 1 61 74 1 1 3bc b 17 1 e0 18 7 1 f8 28 18 2 101 32 3 2 133 7 8 2 13a 11 17 2 14b",
   "2e 1 1 ff 1 3 2 17a 6 1 1 73 2 1 1 253 1 2 2 183 4 1 1 254 1 1 1 188 2 2 1 256 2 1 1 18c",
   "3 1 1 1dd 1 1 1 259 1 1 1 25b 1 1 1 192 2 1 1 260 1 1 1 263 2 1 1 269 1 1 1 268 1 1 1",
   "199 4 1 1 26f 1 1 1 272 2 1 1 275 1 3 2 1a1 6 1 1 280 1 1 1 1a8 2 1 1 283 3 1 1 1ad 2 1",
   "1 288 1 1 1 1b0 2 2 1 28a 2 2 2 1b4 4 1 1 292 1 1 1 1b9 4 1 1 1bd 8 1 1 1c6 1 1 1 1c6 2",
   "1 1 1c9 1 1 1 1c9 2 1 1 1cc 1 9 2 1cc 13 9 2 1df 13 1 1 1f3 1 2 2 1f3 4 1 1 195 1 1 1",
   "1bf 1 14 2 1f9 28 1 1 19e 2 9 2 223 18 1 1 2c65 1 1 1 23c 2 1 1 19a 1 1 1 2c66 3 1 1 242",
   "2 1 1 180 1 1 1 289 1 1 1 28c 1 5 2 247 ff 1 1 3b9 2b 2 2 371 6 1 1 377 9 1 1 3f3 7 1 1",
   "3ac 2 3 1 3ad 4 1 1 3cc 2 2 1 3cd 3 11 1 3b1 12 9 1 3c3 1f 1 1 3c3 d 1 1 3d7 1 1 1 3b2 1",
   "1 1 3b8 4 1 1 3c6 1 1 1 3c0 2 c 2 3d9 18 1 1 3ba 1 1 1 3c1 3 1 1 3b8 1 1 1 3b5 2 1 1 3f8",
   "2 1 1 3f2 1 1 1 3fb 3 3 1 37b 3 10 1 450 10 20 1 430 50 11 2 461 2a 1b 2 48b 36 1 1 4cf",
   "1 7 2 4c2 f 30 2 4d1 61 26 1 561 b6f 26 1 2d00 27 1 1 2d27 6 1 1 2d2d 32b 6 1 13f0 888 1",
   "1 432 1 1 1 434 1 1 1 43e 1 2 1 441 2 1 1 442 1 1 1 44a 1 1 1 463 1 1 1 a64b 1 1 1 1c8a",
   "7 2b 1 10d0 2d 3 1 10fd 143 4b 2 1e01 9b 1 1 1e61 3 1 1 df 2 30 2 1ea1 68 8 1 1f00 10 6",
   "1 1f10 10 8 1 1f20 10 8 1 1f30 10 6 1 1f40 11 4 2 1f51 f 8 1 1f60 20 8 1 1f80 10 8 1",
   "1f90 10 8 1 1fa0 10 2 1 1fb0 2 2 1 1f70 2 1 1 1fb3 2 1 1 3b9 a 4 1 1f72 4 1 1 1fc3 7 1 1",
   "390 5 2 1 1fd0 2 2 1 1f76 9 1 1 3b0 5 2 1 1fe0 2 2 1 1f7a 2 1 1 1fe5 c 2 1 1f78 2 2 1",
   "1f7c 2 1 1 1ff3 12a 1 1 3c9 4 1 1 6b 1 1 1 e5 7 1 1 214e 2e 10 1 2170 23 1 1 2184 333 1a",
   "1 24d0 74a 30 1 2c30 60 1 1 2c61 2 1 1 26b 1 1 1 1d7d 1 1 1 27d 3 3 2 2c68 6 1 1 251 1 1",
   "1 271 1 1 1 250 1 1 1 252 2 1 1 2c73 3 1 1 2c76 9 2 1 23f 2 32 2 2c81 6b 2 2 2cec 7 1 1",
   "2cf3 794e 17 2 a641 40 e 2 a681 a2 7 2 a723 10 1f 2 a733 47 2 2 a77a 4 1 1 1d79 1 5 2",
   "a77f d 1 1 a78c 2 1 1 265 3 2 2 a791 6 a 2 a797 14 1 1 266 1 1 1 25c 1 1 1 261 1 1 1 26c",
   "1 1 1 26a 2 1 1 29e 1 1 1 287 1 1 1 29d 1 1 1 ab53 1 8 2 a7b5 10 1 1 a794 1 1 1 282 1 1",
   "1 1d8e 1 2 2 a7c8 4 1 1 264 1 1 1 a7cd 4 1 1 a7d1 6 3 2 a7d7 6 1 1 19b 19 1 1 a7f6 37b",
   "50 1 13a0 4f95 1 1 fb06 41c 1a 1 ff41 4df 28 1 10428 b0 24 1 104d8 c0 b 1 10597 c f 1",
   "105a3 10 7 1 105b3 8 2 1 105bb 6ec 33 1 10cc0 d0 16 1 10d70 b50 20 1 118c0 55a0 20 1",
   "16e60 7ac0 22 1 1e922"]

end StreamScript.Regex
